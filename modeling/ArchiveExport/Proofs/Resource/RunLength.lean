import ArchiveExport.Resource.Sprite

/-!
# Expanding runs of zeros

Expanding with an eye on the size that is wanted gives the full expansion, cut or filled to that
size. A smaller size therefore gives a first part of what a larger one gives, and every shortened
form of some pixels expands to them.
-/

namespace ArchiveExport

namespace Bytes

theorem fit_length (bs : Bytes) : bs.fit bs.length = bs := by
  simp [fit]

/-- What stands behind enough octets is cut off. -/
theorem fit_append {bs : Bytes} {size : Nat} (h : size ≤ bs.length) (more : Bytes) :
    (bs ++ more).fit size = bs.fit size := by
  simp only [fit, List.take_append_of_le_length h]

/-- Cutting further is cutting to the smaller size at once. -/
theorem take_fit (bs : Bytes) {smaller size : Nat} (h : smaller ≤ size) :
    (bs.fit size).take smaller = bs.fit smaller := by
  have hfilled : min (smaller - min size bs.length) (size - min size bs.length) =
      smaller - min smaller bs.length := by
    omega
  simp only [fit, List.take_append, List.take_take, List.take_replicate, List.length_take,
    Nat.min_eq_left h, hfilled]

theorem fit_isPrefix (bs : Bytes) {smaller size : Nat} (h : smaller ≤ size) :
    bs.fit smaller <+: bs.fit size := by
  rw [← take_fit bs h]
  exact List.take_prefix _ _

end Bytes

namespace RunLength

theorem fit_expandOnto (limit : Nat) (out encoded : Bytes) :
    (expandOnto limit out.length out encoded).fit limit =
      Bytes.fit (out.reverse ++ expand encoded) limit := by
  induction encoded using expand.induct generalizing out with
  | case1 => simp [expandOnto, expand]
  | case2 b =>
      rw [expandOnto, expand]
      split
      next hfull => rw [Bytes.fit_append (by simpa using hfull)]
      next => simp
  | case3 count rest ih =>
      rw [expandOnto, expand]
      split
      next hfull => rw [Bytes.fit_append (by simpa using hfull)]
      next =>
        have hrun := ih (List.replicate count.toNat 0 ++ out)
        rw [List.length_append, List.length_replicate, Nat.add_comm] at hrun
        simp [hrun]
  | case4 b count rest hb ih =>
      rw [expandOnto, expand]
      split
      next hfull => rw [Bytes.fit_append (by simpa using hfull)]
      next =>
        have hliteral := ih (b :: out)
        rw [List.length_cons] at hliteral
        simp [hliteral]

/-- Expanding up to a size is expanding and cutting or filling to that size. -/
theorem decompress_eq (encoded : Bytes) (size : Nat) :
    decompress encoded size = (expand encoded).fit size :=
  fit_expandOnto size [] encoded

theorem Encodes.expand_eq {encoded pixels : Bytes} (h : Encodes encoded pixels) :
    expand encoded = pixels := by
  induction h with
  | nil => rfl
  | run count h ih => simp [expand, ih]
  | @literal encoded pixels b hb h ih =>
      cases encoded with
      | nil => simpa [expand] using ih
      | cons count rest => simp [expand, hb, ih]

/-- A shortened form expands to the pixels that it stands for. -/
theorem Encodes.decompress_eq {encoded pixels : Bytes} (h : Encodes encoded pixels) :
    decompress encoded pixels.length = pixels := by
  rw [RunLength.decompress_eq, h.expand_eq, Bytes.fit_length]

/-- Every string of pixels has a shortened form, for instance the one whose runs are single
zeros. -/
theorem exists_encodes (pixels : Bytes) : ∃ encoded, Encodes encoded pixels := by
  induction pixels with
  | nil => exact ⟨[], .nil⟩
  | cons b pixels ih =>
      obtain ⟨encoded, h⟩ := ih
      by_cases hb : b = 0
      · subst hb
        exact ⟨0 :: 1 :: encoded, .run 1 h⟩
      · exact ⟨b :: encoded, .literal b hb h⟩

/-- Expanding up to a size gives the full expansion, cut or filled to that size, and up to a smaller
size a first part of it. Every string of pixels has shortened forms, and each of them expands to the
pixels. -/
theorem decompress_expands (encoded : Bytes) (size : Nat) (pixels : Bytes) :
    decompress encoded size = (expand encoded).fit size ∧
      (∀ smaller ≤ size, decompress encoded smaller <+: decompress encoded size) ∧
      (∃ shortened, Encodes shortened pixels) ∧
      ∀ shortened, Encodes shortened pixels → decompress shortened pixels.length = pixels := by
  refine ⟨decompress_eq encoded size, fun smaller h => ?_, exists_encodes pixels,
    fun shortened h => h.decompress_eq⟩
  rw [decompress_eq, decompress_eq]
  exact Bytes.fit_isPrefix (expand encoded) h

/-- Two zeros and a pixel, whose first run is split and whose run of none stands for nothing. -/
example : decompress [0, 1, 0, 0, 0, 1, 7] 3 = [0, 0, 7] ∧
    decompress [0, 1, 0, 0, 0, 1, 7] 2 = [0, 0] ∧ decompress [7, 0] 4 = [7, 0, 0, 0] := by
  decide

end RunLength

end ArchiveExport
