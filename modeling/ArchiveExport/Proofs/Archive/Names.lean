import ArchiveExport.Proofs.Archive.Key
import ArchiveExport.Proofs.Archive.Rows
import ArchiveExport.Proofs.Data.OrderedMap
import ArchiveExport.Proofs.Text.EucKr
import ArchiveExport.Proofs.Text.Letters

/-!
# Names that share a key

The key of a row is made from its name, which is read as EUC-KR whether or not it is. Two names have
the same key only if they spell texts that are the same path up to the case of letters and up to
slashes, or if neither spells a text and what is read for them is the same in this sense. A row of a
table is found under its key unless a later row has such a name.
-/

namespace ArchiveExport

open Text (smallLetters)
open Text.EucKr (Spells decodeLossy)
open Text.Utf8 (replacement)

namespace Grf

variable {a b : Row} {s t : List Char} {xs ys : Bytes}

/-- A path with slashes in one direction, and none in front. -/
def plain (s : List Char) : List Char :=
  (s.map fun c => if c = '\\' then '/' else c).dropWhile (· = '/')

/-- Two texts are the same path up to the case of letters, the direction of slashes and slashes in
front. -/
def SamePath (s t : List Char) : Prop :=
  (plain s).flatMap smallLetters = (plain t).flatMap smallLetters

/-- Two names are the same path: both in EUC-KR, or neither of them and as far as they can be
read. -/
inductive NamedAlike (xs ys : Bytes) : Prop
  | spelled {s t : List Char} (hxs : Spells xs s) (hys : Spells ys t) (h : SamePath s t)
  | unspelled (hxs : ∀ s, ¬ Spells xs s) (hys : ∀ t, ¬ Spells ys t)
      (h : SamePath (decodeLossy xs) (decodeLossy ys))

/-! ### Keys -/

theorem toList_normalize_ofList (s : List Char) :
    (normalize (String.ofList s)).toList = Text.lowerFrom [] (plain s) := by
  rw [toList_normalize, FolderArchive.normalize, Text.dropLeading, Text.replace,
    String.toList_ofList, String.toList_ofList, String.toList_ofList, plain]

theorem samePath_of_normalize_eq
    (h : normalize (String.ofList s) = normalize (String.ofList t)) : SamePath s t := by
  have hlists := congrArg String.toList h
  rw [toList_normalize_ofList, toList_normalize_ofList] at hlists
  rw [SamePath, ← Text.map_innerSigma_lowerFrom [], hlists, Text.map_innerSigma_lowerFrom]

/-- Slashes aside, a path has the characters of its text. -/
theorem mem_plain_iff {c : Char} (hslash : c ≠ '/') (hbackslash : c ≠ '\\') :
    c ∈ plain s ↔ c ∈ s := by
  have hmap : c ∈ (s.map fun c => if c = '\\' then '/' else c) ↔ c ∈ s := by
    rw [List.mem_map]
    constructor
    · rintro ⟨d, hd, heq⟩
      split at heq
      next => exact absurd heq.symm hslash
      next => exact heq ▸ hd
    · intro hc
      exact ⟨c, hc, if_neg hbackslash⟩
  rw [← hmap, plain]
  generalize (s.map fun c => if c = '\\' then '/' else c) = ds
  conv_rhs => rw [← List.takeWhile_append_dropWhile (p := (· = '/')) (l := ds), List.mem_append]
  refine ⟨Or.inr, fun h => h.resolve_left fun hfront => hslash ?_⟩
  simpa using List.mem_takeWhile_imp hfront

/-- The same paths stand for octets that spell nothing in the same places. -/
theorem SamePath.replacement_mem_iff (h : SamePath s t) : replacement ∈ s ↔ replacement ∈ t := by
  have hletters : ∀ s, replacement ∈ (plain s).flatMap smallLetters ↔ replacement ∈ s := by
    intro s
    rw [List.mem_flatMap]
    simp only [Text.replacement_mem_smallLetters_iff, exists_eq_right']
    exact mem_plain_iff (by decide) (by decide)
  rw [← hletters s, h, hletters t]

/-- Rows with one key have names that are the same path. -/
theorem namedAlike_of_key_eq (h : a.key = b.key) : NamedAlike a.name b.name := by
  have hsame : SamePath (decodeLossy a.name) (decodeLossy b.name) := samePath_of_normalize_eq h
  by_cases hread : replacement ∈ decodeLossy a.name
  · have hread' := hsame.replacement_mem_iff.mp hread
    exact .unspelled (Text.EucKr.forall_not_spells_iff.mpr hread)
      (Text.EucKr.forall_not_spells_iff.mpr hread') hsame
  · have hread' := mt hsame.replacement_mem_iff.mpr hread
    exact .spelled (Text.EucKr.spells_iff.mpr ⟨rfl, hread⟩)
      (Text.EucKr.spells_iff.mpr ⟨rfl, hread'⟩) hsame

/-! ### Tables -/

/-- In every file table, rows that stand for files have different keys unless their names are the
same path, both spelled in EUC-KR or both not. So every such row is found as long as no later one
is named like it. -/
theorem keys_apart_unless_namedAlike (table : Bytes) (path : String) (priority : Int) :
    (∀ a ∈ (rows table).1, ∀ b ∈ (rows table).1, a.Listed → b.Listed →
      ¬ NamedAlike a.name b.name → a.key ≠ b.key) ∧
    ∀ before row after, (rows table).1 = before ++ row :: after → row.Listed →
      (∀ later ∈ after, later.Listed → ¬ NamedAlike row.name later.name) →
      (entriesOf (rows table).1 path priority).find? row.key = some (row.entry path priority) := by
  constructor
  · intro a _ b _ _ _ hnot hkey
    exact hnot (namedAlike_of_key_eq hkey)
  · intro before row after hrows hrow hafter
    have haccepted : row.accepted? path priority = some (row.entry path priority) := by
      rw [Row.accepted?_eq, if_pos hrow]
    rw [hrows]
    refine find?_entriesOf haccepted fun later hlater hkey => ?_
    rw [Row.accepted?_eq, if_neg]
    exact fun hlisted => hafter later hlater hlisted (namedAlike_of_key_eq hkey.symm)

/-- Two files whose names are single octets that begin no character. -/
def strayNames : List Row := [⟨[0xFF], 1, 1, 1, 0⟩, ⟨[0x80], 2, 2, 1, 1⟩]

/-- Both names are read as the same text, and the first file is not found. -/
theorem keys_merge_of_strayNames :
    ∃ first second : Row,
      (rows (strayNames.flatMap Row.encode)).1 = [first, second] ∧
      first.Listed ∧ second.Listed ∧ first.name ≠ second.name ∧
      (¬ ∃ s t, Spells first.name s ∧ Spells second.name t ∧ SamePath s t) ∧
      first.key = second.key ∧
      (entriesOf (rows (strayNames.flatMap Row.encode)).1 "a.grf" 0).find? first.key =
        some (second.entry "a.grf" 0) ∧
      second.entry "a.grf" 0 ≠ first.entry "a.grf" 0 := by
  have hfits : ∀ row ∈ strayNames, row.Fits := by
    intro row hrow
    simp only [strayNames, List.mem_cons, List.not_mem_nil, or_false] at hrow
    rcases hrow with rfl | rfl <;> exact ⟨by decide, by decide, by decide, by decide⟩
  have hnone : HoldsNoRow [] := by
    have hstop : scan [] = .stop := rfl
    exact holdsNoRow_iff.mpr fun row rest hrow => by simp [hstop] at hrow
  have hrows : (rows (strayNames.flatMap Row.encode)).1 = strayNames := by
    have hwritten := rows_written (Row.written_flatMap_encode hfits) hnone
    rwa [List.append_nil] at hwritten
  have hstray : ∀ s, ¬ Spells [0xFF] s :=
    Text.EucKr.forall_not_spells_iff.mpr (by decide)
  refine ⟨_, _, hrows, ?_⟩
  rw [hrows]
  exact ⟨by decide, by decide, by decide, fun ⟨s, _, hs, _⟩ => hstray s hs, by decide, by decide,
    by decide⟩

end Grf

end ArchiveExport
