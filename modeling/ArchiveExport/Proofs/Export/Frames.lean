import ArchiveExport.Proofs.Export.Paths

/-!
# The images of a decoded sprite

A sprite that is read from octets has one image for each frame that can be drawn, in the order of
the frames. Frames without images keep their numbers, so that the paths of the images differ.
-/

namespace ArchiveExport.Step

variable {bs : Bytes} {s : Sprite}

/-- A number has no image exactly if there is no frame or one that cannot be drawn; else the image
has the size and the colours of the frame. Drawing a sprite gives the images of all numbers in
turn, and their paths are different. -/
theorem drawFrames_of_decode (h : (Sprite.decode bs).2 = .ok s) :
    (∀ index : Int,
      ((s.frameImage? index).2 = none ↔ (index < 0 ∨ s.frames.length ≤ index) ∨
        ∃ (i : Nat) (f : SpriteFrame), index = i ∧ s.frames[i]? = some f ∧ ¬ f.IsDrawable) ∧
      ∀ image, (s.frameImage? index).2 = some image →
        ∃ (i : Nat) (f : SpriteFrame), index = i ∧ s.frames[i]? = some f ∧
          (image.width = f.width ∧ image.height = f.height) ∧
          ∀ x y, x < f.width → y < f.height → image.pixel? x y = some
            (if i < s.indexed.length then s.indexedColor f x y else f.storedColor x y)) ∧
    drawFrames s = (do warn s.drawWarnings; return s.images) ∧
    ∀ (naming : Naming) (identifier : String),
      (s.images.map fun image => naming.texturePath identifier image.1).Nodup := by
  refine ⟨fun index => ⟨Sprite.frameImage?_eq_none_iff, fun image himage => ?_⟩,
    drawFrames_eq s, fun naming identifier => ?_⟩
  · exact Sprite.pixel?_of_frameImage? h himage
  · have hpaths := naming.nodup_texturePath identifier (numbered_images s)
    rwa [List.map_map] at hpaths

/-- An indexed frame without pixels, one of a single pixel, and a full-colour frame of two rows. -/
def mixedOctets : Bytes :=
  [0x53, 0x50, 0, 2, 2, 0, 1, 0] ++ [0, 0, 0, 0] ++ [1, 0, 1, 0, 7] ++
    [1, 0, 2, 0, 1, 2, 3, 4, 5, 6, 7, 8]

/-- What is read from them. -/
def mixedSprite : Sprite where
  version := ⟨2, 0⟩
  indexed := [⟨0, 0, .indexed, []⟩, ⟨1, 1, .indexed, [7]⟩]
  rgba := [⟨1, 2, .rgba, [1, 2, 3, 4, 5, 6, 7, 8]⟩]
  palette := .grey

theorem drawFrames_of_mixedOctets :
    (Sprite.decode mixedOctets).2 = .ok mixedSprite ∧
      mixedSprite.images.map Prod.fst = [some 1, some 2] ∧
      ∃ image, (mixedSprite.frameImage? 2).2 = some image ∧
        image.pixel? 0 0 = some ⟨6, 7, 8, 5⟩ := by
  have hdecode : (Sprite.decode mixedOctets).2 = .ok mixedSprite := rfl
  refine ⟨hdecode, rfl, ?_⟩
  cases himage : (mixedSprite.frameImage? 2).2 with
  | none => cases himage
  | some image =>
      obtain ⟨i, f, hi, hf, -, hpixels⟩ := ((drawFrames_of_decode hdecode).1 2).2 image himage
      obtain rfl : i = 2 := (Int.ofNat_inj.mp hi).symm
      cases hf
      exact ⟨image, rfl, hpixels 0 0 (by decide) (by decide)⟩

end ArchiveExport.Step
