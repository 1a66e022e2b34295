import ArchiveExport.Proofs.Archive.Opened
import ArchiveExport.Proofs.Entry.Extension
import ArchiveExport.Proofs.Entry.Resolution
import ArchiveExport.Proofs.Export.Reads
import ArchiveExport.Proofs.Export.Table
import ArchiveExport.Proofs.Text.Lowercase

/-!
# Entries of grouped keys

A key with a grouped suffix is known by its stem, and a stem without an extension of its own is
exported as a bundle. Where an extension is left over in the stem, its rule decides instead. The two
halves of a bundle are asked for with their suffixes in lower case, and a folder may have them in
another case.
-/

namespace ArchiveExport

namespace Text

/-- Lowering leaves no character out. -/
theorem lower_eq_empty_iff {text : String} : lower text = "" ↔ text = "" := by
  constructor
  · intro h
    have hlist : lowerFrom [] text.toList = [] := by
      simpa [lower] using h
    cases hcs : text.toList with
    | nil => exact String.toList_eq_nil_iff.mp hcs
    | cons c cs =>
        obtain ⟨lowered, heq, hne, -⟩ := lowerFrom_cons [] c cs
        rw [hcs, heq] at hlist
        exact absurd (List.append_eq_nil_iff.mp hlist).1 hne
  · rintro rfl
    rfl

end Text

namespace Entry

section

variable {suffixes keys : List String} {pattern key name : String} {e : Entry}

/-- A grouped key is its stem, a dot and the suffix in some case. -/
theorem eq_append_of_isGrouped (h : isGrouped suffixes key = true) :
    ∃ suffix, EndsInName (form suffixes key) ∧ IsExtension suffix ∧ suffix ≠ "" ∧
      Text.lower suffix ∈ suffixes ∧ key = form suffixes key ++ "." ++ suffix := by
  rw [isGrouped, canonical] at h
  rw [form, canonical]
  rcases splitExtension_cases key with hplain | ⟨stem, suffix, hstem, hsuffix, hkey, hsplit⟩
  · rw [hplain] at h
    simp at h
  · rw [hsplit] at h ⊢
    simp only at h ⊢
    split at h
    next hgrouped =>
      rw [if_pos hgrouped]
      have hne : suffix ≠ "" := fun hempty => hgrouped.1 (Text.lower_eq_empty_iff.mpr hempty)
      exact ⟨suffix, hstem, hsuffix, hne, hgrouped.2, hkey⟩
    next => simp at h

/-- An extension is left in a name that ends in a further dot and something behind it. -/
def KeepsExtension (name : String) : Prop :=
  ∃ front ending, EndsInName front ∧ IsExtension ending ∧ ending ≠ "" ∧
    name = front ++ "." ++ ending

theorem keepsExtension_iff : KeepsExtension name ↔ extension name ≠ "" := by
  constructor
  · rintro ⟨front, ending, hfront, hending, hne, rfl⟩
    rw [extension, splitExtension_append hfront hending]
    exact fun hempty => hne (Text.lower_eq_empty_iff.mp hempty)
  · intro hne
    rw [extension] at hne
    rcases splitExtension_cases name with hplain | ⟨front, ending, hfront, hending, hname, hsplit⟩
    · rw [hplain] at hne
      exact absurd rfl hne
    · rw [hsplit] at hne
      exact ⟨front, ending, hfront, hending, fun hempty => hne (Text.lower_eq_empty_iff.mpr hempty),
        hname⟩

/-- All keys of an entry have its name, and are named by its pattern. -/
theorem of_mem_members (hwildcard : Glob.hasWildcard pattern = true)
    (he : e ∈ resolve suffixes pattern keys) (hkey : key ∈ e.members) :
    key ∈ keys ∧ Names suffixes pattern key ∧ form suffixes key = e.identifier := by
  rw [((mem_resolve_iff hwildcard).mp he).2.1] at hkey
  simpa [membersOf] using hkey

end

/-! ### Dispatch -/

variable {keys : List String} {pattern key : String} {e : Entry}

/-- An entry of grouped keys is exported as a bundle exactly where no extension is left over in its
name; so it is with all keys of the entry that have a grouped suffix. -/
theorem handlerFor_of_grouped (hwildcard : Glob.hasWildcard pattern = true)
    (he : e ∈ resolve standardSuffixes pattern keys) (hkey : key ∈ e.members)
    (hgrouped : isGrouped standardSuffixes key = true) :
    (∃ suffix, IsExtension suffix ∧ Text.lower suffix ∈ standardSuffixes ∧
        key = e.identifier ++ "." ++ suffix) ∧
      (DispatchTable.standard.handlerFor e.identifier = .structured .bundle ↔
        ¬ KeepsExtension e.identifier) ∧
      (DispatchTable.standard.rendererFor? e.identifier = some .bundleFrames ↔
        ¬ KeepsExtension e.identifier) := by
  obtain ⟨-, -, hform⟩ := of_mem_members hwildcard he hkey
  obtain ⟨suffix, -, hsuffix, -, hmem, heq⟩ := eq_append_of_isGrouped hgrouped
  rw [hform] at heq
  rw [DispatchTable.handlerFor_eq_bundle_iff, DispatchTable.rendererFor?_eq_bundleFrames_iff,
    keepsExtension_iff, not_not]
  exact ⟨⟨suffix, hsuffix, hmem, heq⟩, Iff.rfl, Iff.rfl⟩

/-- The halves of a sprite in a folder whose name has a dot. -/
theorem handlerFor_of_grouped_halves :
    Glob.hasWildcard "*" = true ∧
      (⟨"s.d/a", "*", ["s.d/a.ACT", "s.d/a.spr"]⟩ : Entry) ∈
        resolve standardSuffixes "*" ["s.d/a.ACT", "s.d/a.spr"] ∧
      "s.d/a.ACT" ∈ ["s.d/a.ACT", "s.d/a.spr"] ∧
      isGrouped standardSuffixes "s.d/a.ACT" = true ∧
      DispatchTable.standard.handlerFor "s.d/a" = .structured .bundle := by
  have hentry : (⟨"s.d/a", "*", ["s.d/a.ACT", "s.d/a.spr"]⟩ : Entry) ∈
      resolve standardSuffixes "*" ["s.d/a.ACT", "s.d/a.spr"] := by
    decide +kernel
  have hgrouped : isGrouped standardSuffixes "s.d/a.ACT" = true := by
    decide
  have hplain : ¬ KeepsExtension "s.d/a" := by
    rw [keepsExtension_iff]
    decide
  obtain ⟨-, hbundle, -⟩ := handlerFor_of_grouped (by decide) hentry List.mem_cons_self hgrouped
  exact ⟨by decide, hentry, List.mem_cons_self, hgrouped, hbundle.mpr hplain⟩

/-- An extension that is left over in the stem decides, and its entry is passed over. -/
theorem handlerFor_of_leftover :
    ∃ e ∈ resolve standardSuffixes "*" ["a.b.act", "a.b.spr"],
      "a.b.spr" ∈ e.members ∧ isGrouped standardSuffixes "a.b.spr" = true ∧
        DispatchTable.standard.handlerFor e.identifier = .unsupported :=
  ⟨⟨"a.b", "*", ["a.b.act", "a.b.spr"]⟩, by decide +kernel, by decide, by decide, by
    rw [DispatchTable.standard_eq_spelled]
    decide⟩

/-! ### The halves of a bundle -/

variable {suffixes : List String} {half suffix : String}

/-- The members of an entry that have a grouped suffix, told by its lower case. -/
def halves (suffixes : List String) (e : Entry) (suffix : String) : List String :=
  e.members.filter fun key => isGrouped suffixes key && extension key = suffix

/-- The spelling in which a half of a bundle is asked for. -/
def halfKey (e : Entry) (suffix : String) : String := e.identifier ++ "." ++ suffix

/-- A half of a bundle has the name of its entry and the suffix in some case. -/
theorem eq_append_of_mem_halves (hwildcard : Glob.hasWildcard pattern = true)
    (he : e ∈ resolve suffixes pattern keys) (hhalf : half ∈ halves suffixes e suffix) :
    half ∈ keys ∧ EndsInName e.identifier ∧ suffix ∈ suffixes ∧ Names suffixes pattern half ∧
      ∃ spelled, IsExtension spelled ∧ Text.lower spelled = suffix ∧
        half = e.identifier ++ "." ++ spelled := by
  obtain ⟨hmember, hsuffix⟩ := List.mem_filter.mp hhalf
  simp only [Bool.and_eq_true, decide_eq_true_eq] at hsuffix
  obtain ⟨hkey, hnames, hform⟩ := of_mem_members hwildcard he hmember
  obtain ⟨spelled, hname, hspelled, -, hmem, heq⟩ := eq_append_of_isGrouped hsuffix.1
  rw [hform] at hname heq
  have hlower : Text.lower spelled = suffix := by
    rw [← hsuffix.2, heq, extension, splitExtension_append hname hspelled]
  exact ⟨hkey, hname, hlower ▸ hmem, hnames, spelled, hspelled, hlower, heq⟩

/-- A key that ends in a grouped suffix in lower case and has the name of an entry is a half of it
if it is a key at all. -/
theorem halfKey_mem_halves (hwildcard : Glob.hasWildcard pattern = true)
    (he : e ∈ resolve suffixes pattern keys) (hhalf : half ∈ halves suffixes e suffix)
    (hsuffix : IsExtension suffix) (hlower : Text.lower suffix = suffix) (hne : suffix ≠ "")
    (hkey : halfKey e suffix ∈ keys) : halfKey e suffix ∈ halves suffixes e suffix := by
  obtain ⟨-, hname, hmem, hnames, -⟩ := eq_append_of_mem_halves hwildcard he hhalf
  have hsplit : splitExtension (halfKey e suffix) = (e.identifier, suffix) := by
    rw [halfKey, splitExtension_append hname hsuffix, hlower]
  have hcanonical : canonical suffixes (halfKey e suffix) = (e.identifier, true) := by
    rw [canonical, hsplit]
    exact if_pos ⟨hne, hmem⟩
  have hform : form suffixes (halfKey e suffix) = e.identifier := by
    rw [form, hcanonical]
  have hgrouped : isGrouped suffixes (halfKey e suffix) = true := by
    rw [isGrouped, hcanonical]
  have hcovers : Names suffixes pattern (halfKey e suffix) := by
    refine ⟨?_, fun _ => hgrouped⟩
    obtain ⟨-, -, hform'⟩ := of_mem_members hwildcard he (List.mem_filter.mp hhalf).1
    rw [hform, ← hform']
    exact hnames.1
  refine List.mem_filter.mpr ⟨?_, ?_⟩
  · rw [((mem_resolve_iff hwildcard).mp he).2.1, membersOf, List.mem_filter]
    exact ⟨hkey, by simp [hcovers, hform]⟩
  · rw [hgrouped, extension, hsplit]
    simp

variable {disk : Disk} {working : AbsolutePath} {paths : List String} {limit : Int}
  {a : Archive} {codecs : Codecs}

/-- What has the characters of a key in front of a suffix is normalized like the key. -/
theorem normalize_of_half (hopened : Archive.Opened disk working paths limit a)
    (hwildcard : Glob.hasWildcard pattern = true) (he : e ∈ resolve suffixes pattern a.keys)
    (hhalf : half ∈ halves suffixes e suffix) (ending : String)
    (hending : ∀ c ∈ ending.toList, c ≠ '\\' ∧ Text.Lowered c) :
    a.normalize (e.identifier ++ ending) = e.identifier ++ ending := by
  obtain ⟨hkey, hname, -, -, spelled, -, -, heq⟩ := eq_append_of_mem_halves hwildcard he hhalf
  rw [String.append_assoc] at heq
  have hnormal := hopened.normalize_key hkey
  have hself : '\\' ∉ half.toList → half.toList.head? ≠ some '/' →
      FolderArchive.normalize (e.identifier ++ ending) = e.identifier ++ ending := by
    rw [heq]
    exact fun hbackslash hfront => FolderArchive.normalize_append_eq_self hname.ne_empty
      hbackslash hfront fun hmem => (hending _ hmem).1 rfl
  cases a with
  | grf store =>
      have hnormal' : Grf.normalize half = half := hnormal
      have hbackslash := Grf.noBackslash_normalize half
      have hfront := Grf.head?_normalize_ne half
      have hlowered : ∀ c ∈ (e.identifier ++ ending).toList, Text.Lowered c := by
        intro c hc
        rw [String.toList_append, List.mem_append] at hc
        rcases hc with hc | hc
        · have hmem : c ∈ (Grf.normalize half).toList := by
            rw [hnormal', heq]
            simp [hc]
          rw [Grf.toList_normalize] at hmem
          exact (Text.lowered_of_mem_lowerFrom hmem).1
        · exact (hending c hc).2
      rw [hnormal'] at hbackslash hfront
      calc
        Grf.normalize (e.identifier ++ ending) = Text.lower (e.identifier ++ ending) := by
          rw [Grf.normalize_eq, hself hbackslash hfront]
        _ = e.identifier ++ ending := by
          rw [Text.lower, Text.lowerFrom_of_lowered hlowered, String.ofList_toList]
  | folder files =>
      have hnormal' : FolderArchive.normalize half = half := hnormal
      have hbackslash := FolderArchive.noBackslash_normalize half
      have hfront := FolderArchive.head?_normalize_ne half
      rw [hnormal'] at hbackslash hfront
      exact hself hbackslash hfront

theorem halfKey_eq (e : Entry) (suffix : String) :
    halfKey e suffix = e.identifier ++ ("." ++ suffix) := by
  rw [halfKey, String.append_assoc]

/-- In a store of GRF files the halves are spelled as they are asked for. -/
theorem half_eq_halfKey {store : Grf.Store} (hopened : Archive.Opened disk working paths limit
      (.grf store)) (hwildcard : Glob.hasWildcard pattern = true)
    (he : e ∈ resolve suffixes pattern store.keys) (hhalf : half ∈ halves suffixes e suffix) :
    half = halfKey e suffix := by
  obtain ⟨hkey, -, -, -, spelled, -, hlower, heq⟩ := eq_append_of_mem_halves hwildcard he hhalf
  have hnormal : Grf.normalize half = half := hopened.normalize_key hkey
  have hlowered : ∀ c ∈ spelled.toList, Text.Lowered c := by
    intro c hc
    have hmem : c ∈ (Grf.normalize half).toList := by
      rw [hnormal, heq]
      simp [hc]
    rw [Grf.toList_normalize] at hmem
    exact (Text.lowered_of_mem_lowerFrom hmem).1
  have hsame : Text.lower spelled = spelled := by
    rw [Text.lower, Text.lowerFrom_of_lowered hlowered, String.ofList_toList]
  rw [heq, halfKey, ← hlower, hsame]

/-- An archive has the only half of an entry under the spelling in which it is asked for, or has
nothing there. -/
theorem contains_halfKey (hopened : Archive.Opened disk working paths limit a)
    (hwildcard : Glob.hasWildcard pattern = true) (he : e ∈ resolve suffixes pattern a.keys)
    (hone : halves suffixes e suffix = [half]) (hsuffix : IsExtension suffix) (hne : suffix ≠ "")
    (hall : (suffix.toList.all fun c => c ≠ '\\' ∧ Text.Lowered c) = true) {later : Disk}
    (hthere : ∀ fault, a.contains later half ≠ .error fault) :
    a.contains later (halfKey e suffix) = .ok (decide (half = halfKey e suffix)) := by
  have hchars : ∀ c ∈ suffix.toList, c ≠ '\\' ∧ Text.Lowered c := by
    simpa using hall
  have hhalf : half ∈ halves suffixes e suffix := by
    rw [hone]
    exact List.mem_cons_self
  have hlower : Text.lower suffix = suffix := by
    rw [Text.lower, Text.lowerFrom_of_lowered fun c hc => (hchars c hc).2, String.ofList_toList]
  have hending : ∀ c ∈ ("." ++ suffix).toList, c ≠ '\\' ∧ Text.Lowered c := by
    intro c hc
    rw [String.toList_append, List.mem_append] at hc
    rcases hc with hdot | hc
    · obtain rfl : c = '.' := by simpa using hdot
      decide
    · exact hchars c hc
  have hnormal : a.normalize (halfKey e suffix) = halfKey e suffix := by
    rw [halfKey_eq]
    exact normalize_of_half hopened hwildcard he hhalf _ hending
  have hsame : halfKey e suffix ∈ a.keys ↔ half = halfKey e suffix := by
    constructor
    · intro hkey
      have hmem := halfKey_mem_halves hwildcard he hhalf hsuffix hlower hne hkey
      rw [hone] at hmem
      exact (List.mem_singleton.mp hmem).symm
    · intro heq
      rw [← heq]
      exact (eq_append_of_mem_halves hwildcard he hhalf).1
  rcases Archive.contains_eq a later hnormal with hanswer | ⟨hkey, fault, hfault⟩
  · rw [hanswer]
    simp only [hsame]
  · rw [← hsame.mp hkey] at hfault
    exact absurd hfault (hthere fault)

/-- Where an entry of an opened archive has one member for each half of a bundle, and nothing keeps
the archive from looking at them, the decoder reads the two members exactly if they have their
suffixes in lower case, as they always do in a store of GRF files. Else it reads nothing and tells
the spellings that it has looked for and not found. So it is with the images and the sprite. -/
theorem bundle_reads_halves {site : Site} {sprite animation : String}
    (hopened : Archive.Opened disk working paths limit site.archive)
    (hwildcard : Glob.hasWildcard pattern = true)
    (he : e ∈ resolve suffixes pattern site.archive.keys)
    (hsprite : halves suffixes e "spr" = [sprite])
    (hanimation : halves suffixes e "act" = [animation])
    (hthere : ∀ key ∈ e.members, ∀ fault, site.archive.contains site.disk key ≠ .error fault) :
    let stem := e.identifier
    site.archive.normalize stem = stem ∧
      (site.archive.provider = .grf → sprite = stem ++ ".spr" ∧ animation = stem ++ ".act") ∧
      (sprite = stem ++ ".spr" ∧ animation = stem ++ ".act" →
        (Step.decodeBundle stem).Asks site fun result read =>
          (read = [sprite, animation] ∨ read = [sprite] ∧ ∃ cause, result = .error cause) ∧
            ¬ Step.TellsMissing result) ∧
      (¬ (sprite = stem ++ ".spr" ∧ animation = stem ++ ".act") →
        (Step.decodeBundle stem).Asks site fun result read =>
          read = [] ∧ result = .error (.resource ⟨.companions
            ((if sprite = stem ++ ".spr" then [] else [stem ++ ".spr"]) ++
              (if animation = stem ++ ".act" then [] else [stem ++ ".act"])), stem⟩)) ∧
      (sprite = stem ++ ".spr" →
        (Step.render codecs .bundleFrames stem).Asks site fun result read =>
          read = [sprite] ∧ ¬ Step.TellsMissing result) ∧
      (sprite ≠ stem ++ ".spr" →
        (Step.render codecs .bundleFrames stem).Asks site fun result read =>
          read = [] ∧ result = .error (.resource ⟨.frameCompanion (stem ++ ".spr"), stem⟩)) := by
  intro stem
  have hspr : halfKey e "spr" = stem ++ ".spr" := halfKey_eq e "spr"
  have hact : halfKey e "act" = stem ++ ".act" := halfKey_eq e "act"
  have hspriteThere := hthere sprite (List.mem_filter.mp (hsprite ▸ List.mem_cons_self :
    sprite ∈ halves suffixes e "spr")).1
  have hanimationThere := hthere animation (List.mem_filter.mp (hanimation ▸ List.mem_cons_self :
    animation ∈ halves suffixes e "act")).1
  have hfoundSprite := contains_halfKey hopened hwildcard he hsprite
    ⟨by decide, by decide⟩ (by decide) (by decide) hspriteThere
  have hfoundAnimation := contains_halfKey hopened hwildcard he hanimation
    ⟨by decide, by decide⟩ (by decide) (by decide) hanimationThere
  rw [hspr] at hfoundSprite
  rw [hact] at hfoundAnimation
  refine ⟨?_, ?_, ?_, ?_, ?_, ?_⟩
  · have hnormal := normalize_of_half hopened hwildcard he
      (hsprite ▸ List.mem_cons_self : sprite ∈ halves suffixes e "spr") "" (by simp)
    rwa [String.append_empty] at hnormal
  · intro hgrf
    obtain ⟨archive, odisk, sink, console⟩ := site
    cases archive with
    | grf store =>
        constructor
        · rw [← hspr]
          exact half_eq_halfKey hopened hwildcard he (hsprite ▸ List.mem_cons_self)
        · rw [← hact]
          exact half_eq_halfKey hopened hwildcard he (hanimation ▸ List.mem_cons_self)
    | folder files => simp [Archive.provider] at hgrf
  · rintro ⟨rfl, rfl⟩
    rw [decide_eq_true rfl] at hfoundSprite hfoundAnimation
    exact Step.asks_decodeBundle_of_found hfoundSprite hfoundAnimation
  · intro hmissing
    have hlacks := Step.asks_decodeBundle_of_missing stem hfoundSprite hfoundAnimation (by
      simpa using hmissing)
    simpa using hlacks
  · rintro rfl
    rw [decide_eq_true rfl] at hfoundSprite
    exact Step.asks_bundleFrames_of_found hfoundSprite
  · intro hmissing
    rw [decide_eq_false hmissing] at hfoundSprite
    exact Step.asks_bundleFrames_of_missing hfoundSprite

/-- A folder with the halves of a sprite, one of them with a suffix in capitals. -/
def mixedCase : Disk :=
  (Disk.empty.putFile ["in", "a.ACT"] [1]).putFile ["in", "a.spr"] [2]

/-- The two halves as an opened archive, and where an export of it goes. -/
def mixedCaseSite : Site where
  archive := .folder ⟨⟨[("a.ACT", ⟨"/in/a.ACT", 0⟩), ("a.spr", ⟨"/in/a.spr", 0⟩)]⟩⟩
  disk := mixedCase
  sink := { root := ⟨"/", ["out"]⟩ }
  console := {}

theorem opened_mixedCase :
    Archive.Opened mixedCase ⟨"/", []⟩ ["in"] 0 mixedCaseSite.archive := by
  have hfiles : mixedCase.filesBelow ["in"] = [(["a.ACT"], [1]), (["a.spr"], [2])] :=
    List.mergeSort_of_pairwise (by decide)
  have hlisted : FolderArchive.listed mixedCase ⟨"/", ["in"]⟩ =
      [(["a.ACT"], [1]), (["a.spr"], [2])] := by
    rw [FolderArchive.listed, hfiles]
    decide
  have hopen : (FolderArchive.open {} mixedCase ⟨"/", []⟩ "in" 0) =
      (⟨⟨[("a.ACT", ⟨"/in/a.ACT", 0⟩), ("a.spr", ⟨"/in/a.spr", 0⟩)]⟩⟩, [], true) := by
    have hfolder : mixedCase.isFolder [] "in" = true := by decide
    have hroot : (AbsolutePath.ofText ⟨"/", []⟩ "in") = ⟨"/", ["in"]⟩ := by decide
    simp only [FolderArchive.open, hfolder, hroot, hlisted]
    rfl
  have hprovider : Archive.commonProvider mixedCase [] ["in"] = .ok .folder := by
    decide
  refine .opened ?_
  simp only [Archive.openAll, hprovider, Archive.openSources, Archive.empty, Archive.openSource]
  rw [show ((0 : Nat) : Int) = 0 from rfl, hopen]
  rfl

theorem keys_mixedCase : mixedCaseSite.archive.keys = ["a.ACT", "a.spr"] :=
  List.mergeSort_of_pairwise (by decide)

theorem mem_resolve_mixedCase :
    (⟨"a", "*", ["a.ACT", "a.spr"]⟩ : Entry) ∈
      resolve standardSuffixes "*" mixedCaseSite.archive.keys := by
  rw [keys_mixedCase]
  decide +kernel

theorem bundle_reads_halves_of_mixedCase :
    Glob.hasWildcard "*" = true ∧
      (⟨"a", "*", ["a.ACT", "a.spr"]⟩ : Entry) ∈
        resolve standardSuffixes "*" mixedCaseSite.archive.keys ∧
      (∀ key ∈ ["a.ACT", "a.spr"], ∀ fault,
        mixedCaseSite.archive.contains mixedCaseSite.disk key ≠ .error fault) ∧
      (Step.decodeBundle "a").Asks mixedCaseSite (fun result read =>
        read = [] ∧ result = .error (.resource ⟨.companions ["a.act"], "a"⟩)) ∧
      (Step.render .plain .bundleFrames "a").Asks mixedCaseSite fun result read =>
        read = ["a.spr"] ∧ ¬ Step.TellsMissing result := by
  have hthere : ∀ key ∈ ["a.ACT", "a.spr"], ∀ fault,
      mixedCaseSite.archive.contains mixedCaseSite.disk key ≠ .error fault := by
    have hcontains : ∀ key ∈ ["a.ACT", "a.spr"],
        mixedCaseSite.archive.contains mixedCaseSite.disk key = .ok true := by
      decide
    intro key hkey fault
    rw [hcontains key hkey]
    simp
  obtain ⟨-, -, -, hlacks, hdrawn, -⟩ := bundle_reads_halves opened_mixedCase (by decide)
    mem_resolve_mixedCase (show halves _ _ "spr" = ["a.spr"] by decide)
    (show halves _ _ "act" = ["a.ACT"] by decide) hthere
  exact ⟨by decide, mem_resolve_mixedCase, hthere, hlacks (by decide), hdrawn rfl⟩

/-- The decoder misses a half that is a member of the entry. -/
theorem decodeBundle_misses_member :
    ∃ e ∈ resolve standardSuffixes "*" mixedCaseSite.archive.keys,
      halves standardSuffixes e "spr" = ["a.spr"] ∧ halves standardSuffixes e "act" = ["a.ACT"] ∧
        (Step.decodeBundle e.identifier).Asks mixedCaseSite fun result _ =>
          Step.TellsMissing result := by
  have hsprite : mixedCaseSite.archive.contains mixedCaseSite.disk "a.spr" = .ok true := by
    decide
  have hanimation : mixedCaseSite.archive.contains mixedCaseSite.disk "a.act" = .ok false := by
    decide
  have hlacks := Step.asks_decodeBundle_of_missing "a" hsprite hanimation rfl
  refine ⟨_, mem_resolve_mixedCase, by decide, by decide, hlacks.mono ?_⟩
  rintro result read ⟨-, rfl⟩
  trivial

end Entry

end ArchiveExport
