import ArchiveExport.Entry.Resolution
import ArchiveExport.Proofs.Data.OrderedMap
import ArchiveExport.Proofs.Script.Glob
import Mathlib.Data.List.Induction

/-!
# What a pattern with wildcards names

Keys are collected under their names in one pass from left to right. So every name has all its
keys, in their order and as often as they occur, and the names stand in the order of their first
keys.
-/

namespace ArchiveExport.Entry

/-! ### Collecting keys under names -/

section Groups

variable {name? : String → Option String} {keys : List String} {name : String}

/-- The keys that have a name, in their order. -/
def keysOf (name? : String → Option String) (name : String) (keys : List String) : List String :=
  keys.filter fun key => name? key = some name

theorem keysOf_append_singleton (name? : String → Option String) (name : String)
    (keys : List String) (key : String) :
    keysOf name? name (keys ++ [key]) =
      keysOf name? name keys ++ if name? key = some name then [key] else [] := by
  rw [keysOf, List.filter_append]
  by_cases h : name? key = some name <;> simp [h, keysOf]

theorem groupBy_append_singleton (name? : String → Option String) (keys : List String)
    (key : String) :
    groupBy name? (keys ++ [key]) =
      match name? key with
      | some name => (groupBy name? keys).alter name fun members => members.getD [] ++ [key]
      | none => groupBy name? keys := by
  rw [groupBy, List.foldl_append, List.foldl_cons, List.foldl_nil]
  rfl

theorem nodup_keys_groupBy (name? : String → Option String) (keys : List String) :
    (groupBy name? keys).keys.Nodup := by
  induction keys using List.reverseRecOn with
  | nil => exact List.nodup_nil
  | append_singleton keys key ih =>
      rw [groupBy_append_singleton]
      cases name? key with
      | none => exact ih
      | some name => exact OrderedMap.nodup_keys_alter _ name _ ih

/-- Under every name stand all its keys. -/
theorem find?_groupBy (name? : String → Option String) (keys : List String) (name : String) :
    (groupBy name? keys).find? name =
      if keysOf name? name keys = [] then none else some (keysOf name? name keys) := by
  induction keys using List.reverseRecOn with
  | nil => rfl
  | append_singleton keys key ih =>
      rw [groupBy_append_singleton, keysOf_append_singleton]
      cases hkey : name? key with
      | none => simpa using ih
      | some found =>
          rw [OrderedMap.find?_alter]
          by_cases hname : name = found
          · subst hname
            rw [ih]
            by_cases hnone : keysOf name? name keys = []
            · simp [hnone]
            · simp [hnone]
          · have hother : ¬ some found = some name := by
              intro h
              exact hname (Option.some.inj h).symm
            simpa [hname, hother] using ih

theorem mem_keys_groupBy_iff :
    name ∈ (groupBy name? keys).keys ↔ ∃ key ∈ keys, name? key = some name := by
  rw [OrderedMap.mem_keys_iff_exists_find?, find?_groupBy]
  by_cases h : keysOf name? name keys = []
  · have hnone : ∀ key ∈ keys, ¬ name? key = some name := by
      simpa [keysOf] using h
    simpa [h] using hnone
  · obtain ⟨key, hkey⟩ := List.exists_mem_of_ne_nil _ h
    have hnamed : key ∈ keys ∧ name? key = some name := by
      simpa [keysOf] using hkey
    simp only [if_neg h, Option.some.injEq, exists_eq', true_iff]
    exact ⟨key, hnamed⟩

theorem mem_entries_groupBy_iff {members : List String} :
    (name, members) ∈ (groupBy name? keys).entries ↔
      members = keysOf name? name keys ∧ members ≠ [] := by
  have hfind : (name, members) ∈ (groupBy name? keys).entries ↔
      (groupBy name? keys).find? name = some members :=
    ⟨OrderedMap.find?_of_mem_entries (nodup_keys_groupBy name? keys),
      OrderedMap.mem_entries_of_find?⟩
  rw [hfind, find?_groupBy]
  by_cases h : keysOf name? name keys = []
  · rw [if_pos h, h]
    constructor
    · intro hnone
      simp at hnone
    · rintro ⟨rfl, hne⟩
      exact absurd rfl hne
  · rw [if_neg h, Option.some.injEq]
    constructor
    · rintro rfl
      exact ⟨rfl, h⟩
    · rintro ⟨rfl, -⟩
      rfl

/-- The first name has a key before the second one has any. -/
def ComesFirst (name? : String → Option String) (keys : List String) (a b : String) : Prop :=
  ∃ start, start <+: keys ∧ (∃ key ∈ start, name? key = some a) ∧
    ∀ key ∈ start, name? key ≠ some b

/-- Names stand in the order of their first keys. -/
theorem pairwise_keys_groupBy (name? : String → Option String) (keys : List String) :
    (groupBy name? keys).keys.Pairwise (ComesFirst name? keys) := by
  induction keys using List.reverseRecOn with
  | nil => exact List.Pairwise.nil
  | append_singleton keys key ih =>
      have hlonger : (groupBy name? keys).keys.Pairwise (ComesFirst name? (keys ++ [key])) := by
        refine ih.imp ?_
        rintro a b ⟨start, hstart, hboth⟩
        exact ⟨start, hstart.trans (List.prefix_append _ _), hboth⟩
      rw [groupBy_append_singleton]
      cases hkey : name? key with
      | none => exact hlonger
      | some name =>
          simp only [OrderedMap.keys_alter]
          split
          · exact hlonger
          · next hnew =>
            rw [OrderedMap.contains_iff_mem_keys, mem_keys_groupBy_iff] at hnew
            rw [List.pairwise_append]
            refine ⟨hlonger, List.pairwise_singleton _ _, ?_⟩
            intro a ha b hb
            obtain rfl := List.mem_singleton.mp hb
            -- all keys so far come before the key that is new under its name
            refine ⟨keys, List.prefix_append _ _, mem_keys_groupBy_iff.mp ha, ?_⟩
            intro other hother hsame
            exact hnew ⟨other, hother, hsame⟩

end Groups

/-! ### Keys that a pattern names -/

section Patterns

variable {suffixes : List String} {pattern key name : String}

/-- The name that a key has in comparisons: its stem where its suffix is a grouped one. -/
def form (suffixes : List String) (key : String) : String := (canonical suffixes key).1

/-- Whether a key or pattern ends in a grouped suffix. -/
def isGrouped (suffixes : List String) (key : String) : Bool := (canonical suffixes key).2

/-- A pattern with wildcards names a key whose form its own form covers; if the pattern ends in a
grouped suffix, it names only keys that do. -/
def Names (suffixes : List String) (pattern key : String) : Prop :=
  Glob.Covers (form suffixes pattern).toList (form suffixes key).toList ∧
    (isGrouped suffixes pattern = true → isGrouped suffixes key = true)

instance (suffixes : List String) (pattern key : String) :
    Decidable (Names suffixes pattern key) :=
  decidable_of_iff
    ((Matcher.ofPattern (form suffixes pattern)).accepts (form suffixes key) = true ∧
      (isGrouped suffixes pattern = true → isGrouped suffixes key = true))
    (and_congr_left' (Glob.accepts_ofPattern_iff _ _))

theorem nameUnder_eq_some_iff :
    nameUnder suffixes (Matcher.ofPattern (form suffixes pattern)) (isGrouped suffixes pattern)
        key = some name ↔ Names suffixes pattern key ∧ form suffixes key = name := by
  have haccepts := Glob.accepts_ofPattern_iff (form suffixes pattern) (form suffixes key)
  have hname : nameUnder suffixes (Matcher.ofPattern (form suffixes pattern))
      (isGrouped suffixes pattern) key =
      if (!isGrouped suffixes pattern || isGrouped suffixes key) &&
          (Matcher.ofPattern (form suffixes pattern)).accepts (form suffixes key) then
        some (form suffixes key) else none := rfl
  rw [hname, Names, ← haccepts]
  by_cases hcovered : (Matcher.ofPattern (form suffixes pattern)).accepts (form suffixes key) = true
  · cases isGrouped suffixes pattern <;> cases isGrouped suffixes key <;> simp [hcovered]
  · simp [hcovered]

/-- The keys of a name, read off the pattern. -/
def membersOf (suffixes : List String) (pattern : String) (keys : List String) (name : String) :
    List String :=
  keys.filter fun key => Names suffixes pattern key ∧ form suffixes key = name

theorem keysOf_nameUnder (suffixes : List String) (pattern : String) (keys : List String)
    (name : String) :
    keysOf (nameUnder suffixes (Matcher.ofPattern (form suffixes pattern))
      (isGrouped suffixes pattern)) name keys = membersOf suffixes pattern keys name := by
  refine List.filter_congr fun key _ => ?_
  rw [decide_eq_decide]
  exact nameUnder_eq_some_iff

theorem resolve_eq_map {keys : List String} (h : Glob.hasWildcard pattern = true) :
    resolve suffixes pattern keys =
      (groupBy (nameUnder suffixes (Matcher.ofPattern (form suffixes pattern))
        (isGrouped suffixes pattern)) keys).entries.map
        fun (name, members) => ⟨name, pattern, members⟩ := by
  rw [resolve, if_pos h]
  rfl

theorem mem_resolve_iff {keys : List String} (h : Glob.hasWildcard pattern = true) {e : Entry} :
    e ∈ resolve suffixes pattern keys ↔
      e.pattern = pattern ∧ e.members = membersOf suffixes pattern keys e.identifier ∧
        e.members ≠ [] := by
  rw [resolve_eq_map h, List.mem_map]
  constructor
  · rintro ⟨⟨name, members⟩, hentry, rfl⟩
    rw [mem_entries_groupBy_iff, keysOf_nameUnder] at hentry
    exact ⟨rfl, hentry⟩
  · rintro ⟨hpattern, hmembers⟩
    refine ⟨(e.identifier, e.members), ?_, ?_⟩
    · rw [mem_entries_groupBy_iff, keysOf_nameUnder]
      exact hmembers
    · rw [← hpattern]

theorem map_identifier_resolve {keys : List String} (h : Glob.hasWildcard pattern = true) :
    (resolve suffixes pattern keys).map identifier =
      (groupBy (nameUnder suffixes (Matcher.ofPattern (form suffixes pattern))
        (isGrouped suffixes pattern)) keys).keys := by
  rw [resolve_eq_map h, List.map_map]
  rfl

/-- A pattern with wildcards names entries of pairwise different names. Each consists of all keys of
its name, in their order and as often as they occur; every key that the pattern names belongs to
one; an entry comes before another where it has a key before the other one has any; and there are
no entries only where the pattern names no key. -/
theorem resolve_collects (suffixes : List String) (pattern : String) (keys : List String)
    (h : Glob.hasWildcard pattern = true) :
    ((resolve suffixes pattern keys).map identifier).Nodup ∧
      (∀ e ∈ resolve suffixes pattern keys, e.pattern = pattern ∧ e.members ≠ [] ∧
        e.members = keys.filter fun key =>
          Names suffixes pattern key ∧ form suffixes key = e.identifier) ∧
      (∀ key ∈ keys, Names suffixes pattern key →
        ∃ e ∈ resolve suffixes pattern keys, e.identifier = form suffixes key) ∧
      (resolve suffixes pattern keys).Pairwise (fun a b =>
        ∃ start, start <+: keys ∧ (∃ key ∈ start, key ∈ a.members) ∧
          ∀ key ∈ start, key ∉ b.members) ∧
      (resolve suffixes pattern keys = [] ↔ ∀ key ∈ keys, ¬ Names suffixes pattern key) := by
  have hcovered : ∀ key ∈ keys, Names suffixes pattern key →
      ∃ e ∈ resolve suffixes pattern keys, e.identifier = form suffixes key := by
    intro key hkey hnames
    have hmember : key ∈ membersOf suffixes pattern keys (form suffixes key) := by
      simp [membersOf, hkey, hnames]
    refine ⟨⟨form suffixes key, pattern, membersOf suffixes pattern keys (form suffixes key)⟩,
      (mem_resolve_iff h).mpr ⟨rfl, rfl, List.ne_nil_of_mem hmember⟩, rfl⟩
  have hmember : ∀ e ∈ resolve suffixes pattern keys, ∀ key, key ∈ e.members ↔
      key ∈ keys ∧ Names suffixes pattern key ∧ form suffixes key = e.identifier := by
    intro e he key
    rw [((mem_resolve_iff h).mp he).2.1]
    simp [membersOf]
  refine ⟨?_, ?_, hcovered, ?_, ?_⟩
  · rw [map_identifier_resolve h]
    exact nodup_keys_groupBy _ keys
  · intro e he
    obtain ⟨hpattern, hmembers, hne⟩ := (mem_resolve_iff h).mp he
    exact ⟨hpattern, hne, hmembers⟩
  · have horder := pairwise_keys_groupBy (nameUnder suffixes
      (Matcher.ofPattern (form suffixes pattern)) (isGrouped suffixes pattern)) keys
    rw [← map_identifier_resolve h, List.pairwise_map] at horder
    refine horder.imp_of_mem ?_
    rintro a b ha hb ⟨start, hstart, ⟨key, hkey, hfirst⟩, hnone⟩
    refine ⟨start, hstart, ⟨key, hkey, ?_⟩, ?_⟩
    · exact (hmember a ha key).mpr ⟨hstart.subset hkey, nameUnder_eq_some_iff.mp hfirst⟩
    · intro other hother hin
      exact hnone other hother (nameUnder_eq_some_iff.mpr ((hmember b hb other).mp hin).2)
  · constructor
    · intro hnil key hkey hnames
      obtain ⟨e, he, -⟩ := hcovered key hkey hnames
      rw [hnil] at he
      exact List.not_mem_nil he
    · intro hnone
      rw [List.eq_nil_iff_forall_not_mem]
      intro e he
      obtain ⟨key, hkey⟩ := List.exists_mem_of_ne_nil _ ((mem_resolve_iff h).mp he).2.2
      obtain ⟨hin, hnames, -⟩ := (hmember e he key).mp hkey
      exact hnone key hin hnames

/-- Two halves of a sprite and a key without extension share a name. -/
theorem resolve_collects_sprite :
    Glob.hasWildcard "s*" = true ∧
      ((resolve ["spr", "act"] "s*" ["s/a.act", "s/b", "s/a.spr", "s/a"]).map identifier).Nodup :=
  ⟨by decide, (resolve_collects ["spr", "act"] "s*" ["s/a.act", "s/b", "s/a.spr", "s/a"]
    (by decide)).1⟩

end Patterns

end ArchiveExport.Entry
