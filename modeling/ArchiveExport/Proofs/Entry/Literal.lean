import ArchiveExport.Proofs.Entry.Extension
import ArchiveExport.Proofs.Entry.Resolution
import ArchiveExport.Proofs.Text.Lowercase

/-!
# What a stem names by itself

A key belongs to a stem where its suffix is a grouped one in any case. A pattern that is the stem
and nothing else finds its keys by putting the grouped suffixes behind it, and so it finds those
that are spelled in lower case. The two agree where all keys of the stem are spelled so, and where
what is put behind the stem is a suffix in the first place.
-/

namespace ArchiveExport

namespace Text

variable {text : String}

theorem dot_not_mem_lower (h : '.' ∉ text.toList) : '.' ∉ (lower text).toList := by
  intro hdot
  rw [lower, String.toList_ofList] at hdot
  rcases (lowered_of_mem_lowerFrom hdot).2 with hmem | hbeyond
  · exact h hmem
  · exact absurd hbeyond (by decide)

theorem lower_ne_empty (h : text ≠ "") : lower text ≠ "" := by
  obtain ⟨c, cs, hcs⟩ := List.exists_cons_of_ne_nil (show text.toList ≠ [] by simpa using h)
  obtain ⟨lowered, heq, hne, -⟩ := lowerFrom_cons [] c cs
  rw [lower, hcs, heq]
  simp [hne]

theorem dropLeading_of_not_mem {c : Char} (h : c ∉ text.toList) : dropLeading c text = text := by
  rw [dropLeading, List.dropWhile_eq_self_iff.mpr, String.ofList_toList]
  intro hpos
  have hne : text.toList[0] ≠ c := fun hsame => h (hsame ▸ List.getElem_mem hpos)
  simpa using hne

end Text

namespace Entry

variable {suffixes known keys : List String} {pattern key ending : String}

/-- Suffixes without dots are looked up in lower case. -/
theorem normalizeSuffixes_eq (h : ∀ suffix ∈ suffixes, '.' ∉ suffix.toList) :
    normalizeSuffixes suffixes = suffixes.map Text.lower := by
  rw [normalizeSuffixes]
  refine List.map_congr_left fun suffix hsuffix => ?_
  exact Text.dropLeading_of_not_mem (Text.dot_not_mem_lower (h suffix hsuffix))

/-- A key has a stem where it is the stem, a dot and a grouped suffix in some case. -/
theorem canonical_eq_stem_iff :
    canonical known key = (pattern, true) ↔
      ∃ ending, EndsInName pattern ∧ IsExtension ending ∧ key = pattern ++ "." ++ ending ∧
        Text.lower ending ≠ "" ∧ Text.lower ending ∈ known := by
  constructor
  · intro h
    rcases splitExtension_cases key with hsplit | ⟨name, ending, hname, hending, hkey, hsplit⟩
    · simp [canonical, hsplit] at h
    · rw [canonical, hsplit] at h
      simp only at h
      split at h
      next hgrouped =>
        obtain rfl := (Prod.mk.inj h).1
        exact ⟨ending, hname, hending, hkey, hgrouped⟩
      next => simp at h
  · rintro ⟨ending, hname, hending, rfl, hgrouped⟩
    rw [canonical, splitExtension_append hname hending]
    simp only [if_pos hgrouped]

/-- A key that is not its own name is known by its stem. -/
theorem canonical_of_form_eq (hform : form known key = pattern) (hne : key ≠ pattern) :
    canonical known key = (pattern, true) := by
  rcases hsplit : splitExtension key with ⟨stem, ending⟩
  rw [form, canonical, hsplit] at hform
  rw [canonical, hsplit]
  simp only at hform ⊢
  split at hform
  next hgrouped =>
    rw [if_pos hgrouped]
    exact congrArg (·, true) hform
  next => exact absurd hform hne

/-- The keys of a stem, in their order. -/
def keysOfStem (known : List String) (stem : String) (keys : List String) : List String :=
  keys.filter fun key => canonical known key = (stem, true)

/-- An entry of a pattern with wildcards that has a name no key has consists of the keys of this
stem. -/
theorem members_eq_keysOfStem {wild : String} (hwild : Glob.hasWildcard wild = true) {e : Entry}
    (he : e ∈ resolve known wild keys) (hkey : e.identifier ∉ keys) :
    e.members = keysOfStem known e.identifier keys := by
  obtain ⟨-, hmembers, hne⟩ := (mem_resolve_iff hwild).mp he
  rw [hmembers, membersOf, keysOfStem]
  rw [hmembers] at hne
  obtain ⟨first, hfirst⟩ := List.exists_mem_of_ne_nil _ hne
  obtain ⟨-, hnames, hform⟩ : first ∈ keys ∧ Names known wild first ∧
      form known first = e.identifier := by
    simpa [membersOf] using hfirst
  refine List.filter_congr fun key hmem => ?_
  rw [decide_eq_decide]
  constructor
  · rintro ⟨-, hsame⟩
    exact canonical_of_form_eq hsame fun heq => hkey (heq ▸ hmem)
  · intro hcanonical
    have hsame : form known key = e.identifier := congrArg Prod.fst hcanonical
    have hgrouped : isGrouped known key = true := congrArg Prod.snd hcanonical
    exact ⟨⟨by rw [hsame, ← hform]; exact hnames.1, fun _ => hgrouped⟩, hsame⟩

/-! ### Stems as patterns -/

/-- The keys of a stem that a pattern without wildcards finds: the stem with a suffix behind it. -/
def spelledKeys (known : List String) (stem : String) (keys : List String) : List String :=
  keys.filter (· ∈ known.map fun suffix => stem ++ "." ++ suffix)

theorem resolve_literal (hliteral : Glob.hasWildcard pattern = false)
    (hplain : extension pattern = "") (hkey : pattern ∉ keys) :
    resolve known pattern keys =
      [⟨pattern, pattern,
        if spelledKeys known pattern keys = [] then [pattern]
        else spelledKeys known pattern keys⟩] := by
  have hnone : ¬ (extension pattern ≠ "" ∨ pattern ∈ keys) := by simp [hplain, hkey]
  have hmembers : literalMembers known pattern keys =
      if spelledKeys known pattern keys = [] then [pattern]
      else spelledKeys known pattern keys := by
    rw [literalMembers, if_neg hnone]
    dsimp only
    rw [← spelledKeys]
    cases spelledKeys known pattern keys with
    | nil => rfl
    | cons key rest => rw [if_neg (List.cons_ne_nil key rest)]
  rw [resolve, if_neg (by simp [hliteral]), hmembers]

/-- A name that is none of the keys can stand in for no keys and be told from all others. -/
theorem choice_eq_iff {found others : List String} (hfound : pattern ∉ found)
    (hothers : pattern ∉ others) :
    (if found = [] then [pattern] else found) = (if others = [] then [pattern] else others) ↔
      found = others := by
  constructor
  · intro h
    split_ifs at h with hnone hnone' hnone'
    · rw [hnone, hnone']
    · exact absurd (h ▸ List.mem_singleton_self pattern) hothers
    · exact absurd (h ▸ List.mem_singleton_self pattern) hfound
    · exact h
  · rintro rfl
    rfl

theorem append_ending_inj {other : String}
    (h : pattern ++ "." ++ ending = pattern ++ "." ++ other) : ending = other := by
  have hchars := congrArg String.toList h
  simp only [String.toList_append] at hchars
  exact String.toList_inj.mp (List.append_cancel_left hchars)

/-- Where all suffixes are in lower case and have no dots, a key is found by its spelling where it
has the stem exactly if it is spelled in lower case and what is behind the stem is a suffix. -/
theorem spelled_iff_canonical_iff (hknown : ∀ suffix ∈ known, suffix ≠ "" ∧ '.' ∉ suffix.toList)
    (hlower : ∀ suffix ∈ known, Text.lower suffix = suffix) (key : String) :
    (key ∈ known.map (fun suffix => pattern ++ "." ++ suffix) ↔
      canonical known key = (pattern, true)) ↔
    (∀ ending, EndsInName pattern → IsExtension ending → key = pattern ++ "." ++ ending →
      Text.lower ending ∈ known → Text.lower ending = ending) ∧
    ∀ suffix ∈ known, key = pattern ++ "." ++ suffix →
      EndsInName pattern ∧ '/' ∉ suffix.toList := by
  rw [canonical_eq_stem_iff, List.mem_map]
  constructor
  · rintro hsame
    constructor
    · rintro ending hname hending rfl hmem
      obtain ⟨suffix, hsuffix, heq⟩ := hsame.mpr
        ⟨ending, hname, hending, rfl, (hknown _ hmem).1, hmem⟩
      rw [← append_ending_inj heq]
      exact hlower suffix hsuffix
    · rintro suffix hsuffix rfl
      obtain ⟨ending, hname, hending, heq, -⟩ := hsame.mp ⟨suffix, hsuffix, rfl⟩
      rw [append_ending_inj heq]
      exact ⟨hname, hending.noSlash⟩
  · rintro ⟨hcase, hplace⟩
    constructor
    · rintro ⟨suffix, hsuffix, rfl⟩
      obtain ⟨hname, hslash⟩ := hplace suffix hsuffix rfl
      refine ⟨suffix, hname, ⟨(hknown suffix hsuffix).2, hslash⟩, rfl, ?_⟩
      rw [hlower suffix hsuffix]
      exact ⟨(hknown suffix hsuffix).1, hsuffix⟩
    · rintro ⟨ending, hname, hending, rfl, -, hmem⟩
      refine ⟨ending, ?_, rfl⟩
      rwa [hcase ending hname hending rfl hmem] at hmem

/-- A pattern without wildcards and extension that is no key stands for the keys of this stem, or
for itself if there are none, and agrees with the entry of this name under every pattern with
wildcards, exactly where all keys of the stem have their suffix in lower case, and every key that is
the pattern, a dot and a grouped suffix has that as its suffix: the pattern is not empty, does not
end in a slash, and there is no slash in the suffix. The entries under patterns with wildcards
consist of the keys of the stem in any case. -/
theorem resolve_stem_iff (hsuffixes : ∀ suffix ∈ suffixes, suffix ≠ "" ∧ '.' ∉ suffix.toList)
    (hliteral : Glob.hasWildcard pattern = false) (hplain : extension pattern = "")
    (hkey : pattern ∉ keys) :
    let known := normalizeSuffixes suffixes
    let members := keysOfStem known pattern keys
    (∀ wild, Glob.hasWildcard wild = true → ∀ e ∈ resolve known wild keys,
      e.identifier = pattern → e.members = members) ∧
    ((resolve known pattern keys =
        [⟨pattern, pattern, if members = [] then [pattern] else members⟩] ∧
      ∀ wild, Glob.hasWildcard wild = true → ∀ e ∈ resolve known wild keys,
        e.identifier = pattern → (resolve known pattern keys).map Entry.members = [e.members]) ↔
      (∀ ending, EndsInName pattern → IsExtension ending → pattern ++ "." ++ ending ∈ keys →
        Text.lower ending ∈ known → Text.lower ending = ending) ∧
      ∀ suffix ∈ known, pattern ++ "." ++ suffix ∈ keys →
        EndsInName pattern ∧ '/' ∉ suffix.toList) := by
  intro known members
  have hknown : ∀ suffix ∈ known, (suffix ≠ "" ∧ '.' ∉ suffix.toList) ∧
      Text.lower suffix = suffix := by
    intro suffix hsuffix
    rw [show known = suffixes.map Text.lower from
      normalizeSuffixes_eq fun s hs => (hsuffixes s hs).2] at hsuffix
    obtain ⟨raw, hraw, rfl⟩ := List.mem_map.mp hsuffix
    obtain ⟨hne, hdot⟩ := hsuffixes raw hraw
    exact ⟨⟨Text.lower_ne_empty hne, Text.dot_not_mem_lower hdot⟩, Text.lower_lower raw⟩
  have hwild : ∀ wild, Glob.hasWildcard wild = true → ∀ e ∈ resolve known wild keys,
      e.identifier = pattern → e.members = members := by
    rintro wild hwildcard e he rfl
    exact members_eq_keysOfStem hwildcard he hkey
  have hfilter : resolve known pattern keys =
      [⟨pattern, pattern, if members = [] then [pattern] else members⟩] ↔
        spelledKeys known pattern keys = members := by
    rw [resolve_literal hliteral hplain hkey]
    simp only [List.cons.injEq, Entry.mk.injEq, true_and, and_true]
    exact choice_eq_iff (fun h => hkey (List.mem_filter.mp h).1)
      fun h => hkey (List.mem_filter.mp h).1
  have heach := fun key => @spelled_iff_canonical_iff known pattern
    (fun suffix hsuffix => (hknown suffix hsuffix).1)
    (fun suffix hsuffix => (hknown suffix hsuffix).2) key
  have hspelled : spelledKeys known pattern keys = members ↔
      (∀ ending, EndsInName pattern → IsExtension ending → pattern ++ "." ++ ending ∈ keys →
        Text.lower ending ∈ known → Text.lower ending = ending) ∧
      ∀ suffix ∈ known, pattern ++ "." ++ suffix ∈ keys →
        EndsInName pattern ∧ '/' ∉ suffix.toList := by
    constructor
    · intro hsame
      have hthere : ∀ key ∈ keys, (key ∈ known.map (fun suffix => pattern ++ "." ++ suffix) ↔
          canonical known key = (pattern, true)) := by
        intro key hmem
        have hboth := congrArg (key ∈ ·) hsame
        simpa only [spelledKeys, members, keysOfStem, List.mem_filter, hmem, true_and,
          decide_eq_true_eq, eq_iff_iff] using hboth
      exact ⟨fun ending hname hending hmem =>
          ((heach _).mp (hthere _ hmem)).1 ending hname hending rfl,
        fun suffix hsuffix hmem => ((heach _).mp (hthere _ hmem)).2 suffix hsuffix rfl⟩
    · rintro ⟨hcase, hplace⟩
      refine List.filter_congr fun key hmem => ?_
      rw [decide_eq_decide, heach]
      refine ⟨?_, ?_⟩
      · rintro ending hname hending rfl
        exact hcase ending hname hending hmem
      · rintro suffix hsuffix rfl
        exact hplace suffix hsuffix hmem
  refine ⟨hwild, ?_⟩
  rw [← hspelled, ← hfilter, and_iff_left_iff_imp]
  intro hresolve wild hwildcard e he hidentifier
  have hmembers := hwild wild hwildcard e he hidentifier
  have hsome : members ≠ [] := hmembers ▸ ((mem_resolve_iff hwildcard).mp he).2.2
  rw [hresolve, hmembers, if_neg hsome]
  rfl

/-- A suffix may be given in capitals, and then the keys that have it in lower case are found. -/
theorem resolve_stem_iff_of_sprite :
    let keys := ["s/a.act", "b", "s/a.spr"]
    (∀ suffix ∈ ["SPR", "act"], suffix ≠ "" ∧ '.' ∉ suffix.toList) ∧
      Glob.hasWildcard "s/a" = false ∧ extension "s/a" = "" ∧ "s/a" ∉ keys ∧
      resolve (normalizeSuffixes ["SPR", "act"]) "s/a" keys =
        [⟨"s/a", "s/a", ["s/a.act", "s/a.spr"]⟩] := by
  intro keys
  have hsuffixes : ∀ suffix ∈ ["SPR", "act"], suffix ≠ "" ∧ '.' ∉ suffix.toList := by decide
  have hliteral : Glob.hasWildcard "s/a" = false := by decide
  have hplain : extension "s/a" = "" := by decide
  have hkey : "s/a" ∉ keys := by decide
  have hendings : ∀ ending, "s/a" ++ "." ++ ending ∈ keys → ending = "act" ∨ ending = "spr" := by
    intro ending hmem
    simp only [keys, List.mem_cons, List.not_mem_nil, or_false] at hmem
    rcases hmem with hact | hother | hspr
    · exact Or.inl (append_ending_inj (hact.trans (by decide)))
    · have hlength := congrArg String.length hother
      rw [String.length_append, show ("s/a" ++ ".").length = 4 by decide,
        show "b".length = 1 by decide] at hlength
      omega
    · exact Or.inr (append_ending_inj (hspr.trans (by decide)))
  have hmembers : keysOfStem (normalizeSuffixes ["SPR", "act"]) "s/a" keys =
      ["s/a.act", "s/a.spr"] := by
    decide +kernel
  have hfound := (resolve_stem_iff hsuffixes hliteral hplain hkey).2.mpr (by
    refine ⟨?_, ?_⟩
    · intro ending _ _ hmem _
      rcases hendings ending hmem with rfl | rfl <;> decide
    · intro suffix _ hmem
      have hname : EndsInName "s/a" := ⟨['s', '/'], 'a', by decide, by decide⟩
      rcases hendings suffix hmem with rfl | rfl <;> exact ⟨hname, by decide⟩)
  refine ⟨hsuffixes, hliteral, hplain, hkey, ?_⟩
  rw [hfound.1, hmembers]
  rfl

/-- A key with its suffix in capitals belongs to the stem, and a pattern with wildcards finds it
there, but the stem alone does not. -/
theorem resolve_stem_misses_capitals :
    let known := normalizeSuffixes ["spr", "act"]
    Glob.hasWildcard "a" = false ∧ extension "a" = "" ∧ "a" ∉ ["a.SPR"] ∧
      keysOfStem known "a" ["a.SPR"] = ["a.SPR"] ∧
      resolve known "a*" ["a.SPR"] = [⟨"a", "a*", ["a.SPR"]⟩] ∧
      resolve known "a" ["a.SPR"] = [⟨"a", "a", ["a"]⟩] := by
  decide +kernel

end Entry

end ArchiveExport
