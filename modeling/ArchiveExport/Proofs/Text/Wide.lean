import ArchiveExport.Text.Wide
import Mathlib.Data.List.Chain

/-!
# Code points and characters

A text of characters is a text of code points without halves of surrogate pairs, and only such a
text is one of characters.
-/

namespace ArchiveExport.Text

theorem Point.ofUnit_half (n : Fin 0x800) : Point.ofUnit (0xD800 + n) = .half n := by
  have hrange : 0xD800 ≤ 0xD800 + n.val ∧ 0xD800 + n.val < 0xE000 := by omega
  rw [Point.ofUnit, dif_pos hrange]
  simp

theorem Point.ofUnit_char {c : Char} (h : c.toNat < 0x10000) : Point.ofUnit c.toNat = .char c := by
  have hvalid : c.toNat < 0xD800 ∨ (0xDFFF < c.toNat ∧ c.toNat < 0x110000) := c.valid
  rw [Point.ofUnit, dif_neg (by omega), Char.ofNat_toNat]

/-! ### Halves of pairs -/

/-- No first half of a pair stands in front of a second half. -/
def Unpaired (points : List Point) : Prop :=
  points.IsChain fun p q => p.isHigh = true → q.isLow = false

/-- Characters are no halves at all. -/
theorem unpaired_map_char (cs : List Char) : Unpaired (cs.map .char) := by
  induction cs with
  | nil => exact List.IsChain.nil
  | cons c cs ih =>
      cases cs with
      | nil => exact List.IsChain.singleton _
      | cons d cs => exact List.IsChain.cons_cons (fun h => by cases h) ih

theorem unpaired_points (text : String) : Unpaired (Spelled.points text) :=
  unpaired_map_char text.toList

namespace Wide

variable {text : Wide} {name : String}

theorem unpaired_ofString (name : String) : Unpaired (ofString name).points :=
  unpaired_map_char name.toList

theorem mapM_char?_map_char (cs : List Char) : (cs.map Point.char).mapM Point.char? = some cs := by
  induction cs with
  | nil => rfl
  | cons c cs ih => simp [Point.char?, ih]

@[simp]
theorem toString?_ofString (name : String) : (ofString name).toString? = some name := by
  rw [toString?, ofString, mapM_char?_map_char, Option.map_some, String.ofList_toList]

@[simp]
theorem narrow_ofString (name : String) : (ofString name).narrow = name :=
  Spelled.ofPoints_points name

theorem map_char_of_mapM_eq_some {points : List Point} {cs : List Char}
    (h : points.mapM Point.char? = some cs) : points = cs.map .char := by
  induction points generalizing cs with
  | nil =>
      obtain rfl := Option.some.inj h
      rfl
  | cons p points ih =>
      rw [List.mapM_cons] at h
      cases p with
      | half n => cases h
      | char c =>
          cases hrest : points.mapM Point.char? with
          | none => simp [Point.char?, hrest] at h
          | some ds =>
              simp only [Point.char?, hrest, Option.pure_def, Option.bind_eq_bind, Option.bind_some,
                Option.some.injEq] at h
              rw [← h, List.map_cons, ih hrest]

/-- A text has no halves exactly if it is one of characters. -/
theorem toString?_eq_some_iff : text.toString? = some name ↔ text = ofString name := by
  constructor
  · intro h
    obtain ⟨cs, hcs, rfl⟩ := Option.map_eq_some_iff.mp h
    rw [ofString, String.toList_ofList, ← map_char_of_mapM_eq_some hcs]
  · rintro rfl
    exact toString?_ofString name

theorem ofString_injective : Function.Injective ofString := by
  intro a b hab
  rw [← Option.some.injEq, ← toString?_ofString a, ← toString?_ofString b, hab]

end Wide

end ArchiveExport.Text
