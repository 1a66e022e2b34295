import ArchiveExport.Proofs.Resource.SpriteOctets

/-!
# The images of a sprite's frames

Which frames of a sprite have an image, and what colour each of its pixels has. Before version 2.0
full colours would be stored in the opposite order, but no sprite that is read from octets has any
there. The images of all frames are listed in order, each under the number of its frame.
-/

namespace ArchiveExport

variable {f : SpriteFrame} {bs : Bytes}

namespace SpriteFrame

/-- An octet of a frame's data, zero where it is missing. -/
def octet (f : SpriteFrame) (i : Nat) : UInt8 :=
  (f.data[i]?).getD 0

/-- A frame has pixels, and is not too large to be drawn. -/
def IsDrawable (f : SpriteFrame) : Prop :=
  f.isEmpty = false ∧ f.width ≤ Sprite.maxDrawn ∧ f.height ≤ Sprite.maxDrawn

/-- A colour that is stored with its opacity in front, in rows of which the lowest is the first. -/
def storedColor (f : SpriteFrame) (x y : Nat) : Color :=
  let start := 4 * ((f.height - 1 - y) * f.width + x)
  ⟨f.octet (start + 1), f.octet (start + 2), f.octet (start + 3), f.octet start⟩

theorem toArray_getD_data (f : SpriteFrame) (i : Nat) : f.data.toArray.getD i 0 = f.octet i := by
  rw [Array.getD_eq_getD_getElem?, List.getElem?_toArray, octet]

end SpriteFrame

namespace Sprite

variable {s : Sprite} {image : Image} {index : Int}

/-- The colour in the palette under the index of a pixel. -/
def indexedColor (s : Sprite) (f : SpriteFrame) (x y : Nat) : Color :=
  s.palette.color (f.octet (y * f.width + x))

/-- The images of the frames that can be drawn, each with the number of its frame unless that is the
only one. -/
def images (s : Sprite) : List (Option Nat × Image) :=
  (List.range s.frames.length).filterMap fun i : Nat => (s.frameImage? i).2.map fun image =>
    (if s.frames.length = 1 then none else some i, image)

/-- The warnings about the frames that are too large. -/
def drawWarnings (s : Sprite) : List Warning :=
  (List.range s.frames.length).flatMap fun i : Nat => (s.frameImage? i).1

/-! ### Frames and their kinds -/

theorem frame?_natCast (s : Sprite) (i : Nat) : s.frame? i = s.frames[i]? := by
  rw [frame?, if_pos (Int.natCast_nonneg i), Int.toNat_natCast]

theorem frame?_of_neg (h : index < 0) : s.frame? index = none := by
  rw [frame?, if_neg (Int.not_le.mpr h)]

/-- The indexed frames of what is decoded stand in front of the full-colour frames, and the latter
have their opacity in front. -/
theorem kind_of_decode (h : (decode bs).2 = .ok s) {i : Nat} (hf : s.frames[i]? = some f) :
    (i < s.indexed.length ∧ f.kind = .indexed) ∨
      (s.indexed.length ≤ i ∧ f.kind = .rgba ∧ s.version.atLeast 2 0 = true) := by
  obtain ⟨header, d, hheads, -, hd, ⟨-, hcount⟩, -⟩ := exists_division h
  by_cases hi : i < s.indexed.length
  · rw [frames, List.getElem?_append_left hi, hd.indexed_eq] at hf
    obtain ⟨p, hp, rfl⟩ := List.mem_map.mp (List.mem_of_getElem? hf)
    exact Or.inl ⟨hi, (hd.reads_indexed p hp).1⟩
  · rw [frames, List.getElem?_append_right (Nat.not_lt.mp hi), hd.rgba_eq] at hf
    obtain ⟨p, hp, rfl⟩ := List.mem_map.mp (List.mem_of_getElem? hf)
    refine Or.inr ⟨Nat.not_lt.mp hi, (hd.reads_rgba p hp).1, ?_⟩
    cases hversion : s.version.atLeast 2 0 with
    | true => rfl
    | false =>
        rw [hheads.rgba_eq, ← hd.version_eq, hversion] at hcount
        exact absurd (List.length_pos_of_mem hp) (Nat.not_lt.mpr hcount)

/-! ### Drawing a frame -/

theorem image?_of_isDrawable (h : f.IsDrawable) : s.image? f = ([], some (s.draw f)) := by
  obtain ⟨hempty, hwidth, hheight⟩ := h
  have hsmall : ¬ (maxDrawn < f.width ∨ maxDrawn < f.height) := by omega
  rw [image?, hempty, if_neg hsmall]
  rfl

theorem image?_of_not_isDrawable (h : ¬ f.IsDrawable) : (s.image? f).2 = none := by
  rw [image?]
  split
  next => rfl
  next hempty =>
    have hlarge : maxDrawn < f.width ∨ maxDrawn < f.height := by
      by_cases hwidth : maxDrawn < f.width
      · exact Or.inl hwidth
      · refine Or.inr (Nat.not_le.mp fun hheight => h ?_)
        exact ⟨Bool.eq_false_iff.mpr hempty, Nat.not_lt.mp hwidth, hheight⟩
    rw [if_pos hlarge]

theorem size_draw (s : Sprite) (f : SpriteFrame) :
    (s.draw f).width = f.width ∧ (s.draw f).height = f.height := by
  unfold draw
  cases f.kind <;> exact ⟨rfl, rfl⟩

variable {x y : Nat} (hx : x < f.width) (hy : y < f.height)

include hx hy

theorem pixel?_draw_of_indexed (hkind : f.kind = .indexed) :
    (s.draw f).pixel? x y = some (s.indexedColor f x y) := by
  rw [draw, hkind]
  simp only [Image.pixel?_ofFn _ hx hy, SpriteFrame.toArray_getD_data, indexedColor]

theorem pixel?_draw_of_rgba (hkind : f.kind = .rgba) (hversion : s.version.atLeast 2 0 = true) :
    (s.draw f).pixel? x y = some (f.storedColor x y) := by
  rw [draw, hkind]
  simp only [Image.pixel?_ofFn _ hx hy, hversion, if_true, SpriteFrame.toArray_getD_data,
    SpriteFrame.storedColor, Nat.add_zero]

omit hx hy

/-! ### The image under a number -/

/-- There is an image under a number exactly if there is a frame that can be drawn. -/
theorem frameImage?_eq_some_iff : (s.frameImage? index).2 = some image ↔
    ∃ (i : Nat) (f : SpriteFrame), index = i ∧ s.frames[i]? = some f ∧ f.IsDrawable ∧
      s.draw f = image := by
  constructor
  · intro h
    cases hframe : s.frame? index with
    | none => simp [frameImage?, hframe] at h
    | some f =>
        rcases Int.lt_or_le index 0 with hnegative | hnatural
        · rw [frame?_of_neg hnegative] at hframe
          cases hframe
        · obtain ⟨i, rfl⟩ := Int.eq_ofNat_of_zero_le hnatural
          simp only [frameImage?, hframe] at h
          rw [frame?_natCast] at hframe
          by_cases hdrawable : f.IsDrawable
          · rw [image?_of_isDrawable hdrawable] at h
            exact ⟨i, f, rfl, hframe, hdrawable, Option.some.inj h⟩
          · rw [image?_of_not_isDrawable hdrawable] at h
            cases h
  · rintro ⟨i, f, rfl, hf, hdrawable, rfl⟩
    rw [frameImage?, frame?_natCast, hf]
    exact congrArg Prod.snd (image?_of_isDrawable hdrawable)

/-- There is none exactly if the number is out of range or its frame cannot be drawn. -/
theorem frameImage?_eq_none_iff : (s.frameImage? index).2 = none ↔
    (index < 0 ∨ s.frames.length ≤ index) ∨
      ∃ (i : Nat) (f : SpriteFrame), index = i ∧ s.frames[i]? = some f ∧ ¬ f.IsDrawable := by
  rw [Option.eq_none_iff_forall_ne_some]
  simp only [ne_eq, frameImage?_eq_some_iff]
  constructor
  · intro h
    by_cases hrange : index < 0 ∨ s.frames.length ≤ index
    · exact Or.inl hrange
    · obtain ⟨i, rfl⟩ := Int.eq_ofNat_of_zero_le (a := index) (by omega)
      have hi : i < s.frames.length := by omega
      exact Or.inr ⟨i, s.frames[i], rfl, List.getElem?_eq_getElem hi, fun hdrawable =>
        h _ ⟨i, s.frames[i], rfl, List.getElem?_eq_getElem hi, hdrawable, rfl⟩⟩
  · rintro h image ⟨i, f, rfl, hf, hdrawable, -⟩
    rcases h with hrange | ⟨j, other, hj, hother, hnot⟩
    · have hi := (List.getElem?_eq_some_iff.mp hf).1
      omega
    · rw [← Int.ofNat_inj.mp hj, hf] at hother
      exact hnot (Option.some.inj hother ▸ hdrawable)

/-- The image of a frame of what is decoded has the size of the frame, and the colours that its
pixels have in the palette or in the octets. -/
theorem pixel?_of_frameImage? (h : (decode bs).2 = .ok s)
    (himage : (s.frameImage? index).2 = some image) :
    ∃ (i : Nat) (f : SpriteFrame), index = i ∧ s.frames[i]? = some f ∧
      (image.width = f.width ∧ image.height = f.height) ∧
      ∀ x y, x < f.width → y < f.height → image.pixel? x y = some
        (if i < s.indexed.length then s.indexedColor f x y else f.storedColor x y) := by
  obtain ⟨i, f, rfl, hf, -, rfl⟩ := frameImage?_eq_some_iff.mp himage
  refine ⟨i, f, rfl, hf, size_draw s f, fun x y hx hy => ?_⟩
  rcases kind_of_decode h hf with ⟨hi, hkind⟩ | ⟨hi, hkind, hversion⟩
  · rw [if_pos hi]
    exact pixel?_draw_of_indexed hx hy hkind
  · rw [if_neg (Nat.not_lt.mpr hi)]
    exact pixel?_draw_of_rgba hx hy hkind hversion

end Sprite

end ArchiveExport
