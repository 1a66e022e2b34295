import ArchiveExport.Image.Png

/-!
# Image files

The format of an image file is found from its content. Beside PNG files there are two formats that
store pixels as blue, green, red: bitmaps with the bottom row first and rows filled up to a multiple
of four octets, and targa files in either order of rows. Files of other kinds are not read, nor are
PNG files with filtered or interlaced rows, with a palette or with sixteen bits for a channel.
-/

namespace ArchiveExport.Bitmap

/-- A number in a field of a header. -/
def field (bs : Bytes) (offset width : Nat) : Nat :=
  Bytes.toNat (bs.slice offset width)

/-- The image of rows of stored pixels, the first stored row at the bottom or at the top. -/
def ofRows? (cells : Array UInt8) (start rowSize width height : Nat) (topFirst : Bool) :
    Option Image := do
  guard (0 < width ∧ 0 < height ∧ start + (height - 1) * rowSize + 3 * width ≤ cells.size)
  return Image.ofFn width height fun x y =>
    let row := if topFirst then y else height - 1 - y
    let place := start + row * rowSize + 3 * x
    ⟨cells.getD (place + 2) 0, cells.getD (place + 1) 0, cells.getD place 0, 255⟩

/-- The image in a bitmap file of 24 bits for a pixel. -/
def decode? (bs : Bytes) : Option Image := do
  guard (bs.take 2 = [0x42, 0x4D] ∧ field bs 28 2 = 24 ∧ field bs 30 4 = 0)
  let width := field bs 18 4
  let rowSize := (3 * width + 3) / 4 * 4
  ofRows? bs.toArray (field bs 10 4) rowSize width (field bs 22 4) false

/-- The image in a targa file of 24 bits for a pixel. -/
def decodeTarga? (bs : Bytes) : Option Image := do
  guard (field bs 1 1 = 0 ∧ field bs 2 1 = 2 ∧ field bs 16 1 = 24)
  let width := field bs 12 2
  let topFirst := (field bs 17 1).testBit 5
  ofRows? bs.toArray (18 + field bs 0 1) (3 * width) width (field bs 14 2) topFirst

end ArchiveExport.Bitmap

namespace ArchiveExport.Image

/-- The image in a file, if it is in one of the formats. -/
def ofBytes? (bs : Bytes) : Option Image :=
  if bs.take 8 = Png.signature then Png.decode? bs
  else if bs.take 2 = [0x42, 0x4D] then Bitmap.decode? bs
  else Bitmap.decodeTarga? bs

end ArchiveExport.Image
