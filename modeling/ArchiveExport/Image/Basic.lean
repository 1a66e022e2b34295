import ArchiveExport.Bytes.Basic

/-!
# Images

An image is a rectangle of colours with an opacity, listed row by row from the top.
-/

namespace ArchiveExport

/-- A colour with its opacity. -/
structure Color where
  red : UInt8
  green : UInt8
  blue : UInt8
  alpha : UInt8
  deriving DecidableEq, Inhabited

namespace Color

/-- The four channels in the order red, green, blue, alpha. -/
def octets (c : Color) : Bytes := [c.red, c.green, c.blue, c.alpha]

end Color

/-- A rectangle of colours, row by row from the top. -/
structure Image where
  width : Nat
  height : Nat
  pixels : Array Color
  size_pixels : pixels.size = width * height

namespace Image

/-- The image whose pixel in column `x` of row `y` is `f x y`. -/
def ofFn (width height : Nat) (f : Nat → Nat → Color) : Image where
  width := width
  height := height
  pixels := Array.ofFn fun i : Fin (width * height) => f (i.val % width) (i.val / width)
  size_pixels := by simp

/-- The pixel in column `x` of row `y`. -/
def pixel? (image : Image) (x y : Nat) : Option Color :=
  if x < image.width then image.pixels[y * image.width + x]? else none

/-- The channels of all pixels. -/
def octets (image : Image) : Bytes :=
  image.pixels.toList.flatMap Color.octets

/-- The pixels of an image are the values of the function that it was built from. -/
theorem pixel?_ofFn {width height x y : Nat} (f : Nat → Nat → Color) (hx : x < width)
    (hy : y < height) : (ofFn width height f).pixel? x y = some (f x y) := by
  have hpos : 0 < width := Nat.lt_of_le_of_lt (Nat.zero_le x) hx
  have hlt : y * width + x < width * height := by
    calc y * width + x < y * width + width := Nat.add_lt_add_left hx _
      _ = (y + 1) * width := (Nat.succ_mul y width).symm
      _ ≤ height * width := Nat.mul_le_mul_right _ hy
      _ = width * height := Nat.mul_comm _ _
  have hmod : (y * width + x) % width = x := by
    rw [Nat.add_comm, Nat.add_mul_mod_self_right, Nat.mod_eq_of_lt hx]
  have hdiv : (y * width + x) / width = y := by
    rw [Nat.add_comm, Nat.add_mul_div_right _ _ hpos, Nat.div_eq_of_lt hx, Nat.zero_add]
  simp only [pixel?, ofFn, hx, if_true, Array.getElem?_ofFn, hlt, dif_pos, hmod, hdiv]

end Image

end ArchiveExport
