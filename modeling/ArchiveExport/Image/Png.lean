import ArchiveExport.Checksum.Redundancy
import ArchiveExport.Deflate.Inflate
import ArchiveExport.Image.Basic

/-!
# PNG files

Images are written as PNG files with four channels of eight bits, rows unfiltered and data
stored. Files with one, three or four channels of eight bits and unfiltered rows are read back.
-/

namespace ArchiveExport.Png

/-- The octets that every file starts with. -/
def signature : Bytes := [0x89, 0x50, 0x4E, 0x47, 0x0D, 0x0A, 0x1A, 0x0A]

/-- A number of four octets, the high one first. -/
def ofNat4 (n : Nat) : Bytes := (Bytes.ofNat 4 n).reverse

/-- The number that octets hold with the high one first. -/
def toNat4 (bs : Bytes) : Nat := Bytes.toNat bs.reverse

/-- A chunk with its size in front and its check sum behind. -/
def chunk (type data : Bytes) : Bytes :=
  ofNat4 data.length ++ type ++ data ++ ofNat4 (Checksum.crc32 (type ++ data))

/-- The type of the chunk with the dimensions. -/
def headerType : Bytes := [0x49, 0x48, 0x44, 0x52]

/-- The type of the chunks with the pixels. -/
def dataType : Bytes := [0x49, 0x44, 0x41, 0x54]

/-- The type of the last chunk. -/
def endType : Bytes := [0x49, 0x45, 0x4E, 0x44]

/-- Rows of octets, each behind the mark of an unfiltered row. -/
def markRows (size : Nat) : Nat → Bytes → List Bytes
  | 0, _ => []
  | rows + 1, bs => (0 :: bs.take size) :: markRows size rows (bs.drop size)

/-- The file of an image. -/
def encode (image : Image) : Bytes :=
  let header := ofNat4 image.width ++ ofNat4 image.height ++ [8, 6, 0, 0, 0]
  let rows := (markRows (4 * image.width) image.height image.octets).flatten
  signature ++ chunk headerType header ++ chunk dataType (Deflate.storeZlib rows) ++
    chunk endType []

/-- The chunks of a file up to the first cut one, each with its type. -/
def chunks : Nat → Bytes → List (Bytes × Bytes)
  | 0, _ => []
  | fuel + 1, bs =>
    let size := toNat4 (bs.take 4)
    let type := (bs.drop 4).take 4
    let data := (bs.drop 8).take size
    if type.length < 4 ∨ data.length < size then []
    else (type, data) :: chunks fuel (bs.drop (size + 12))

/-- The colour of a pixel by its channels. -/
def colorOf? : Bytes → Option Color
  | [grey] => some ⟨grey, grey, grey, 255⟩
  | [red, green, blue] => some ⟨red, green, blue, 255⟩
  | [red, green, blue, alpha] => some ⟨red, green, blue, alpha⟩
  | _ => none

/-- The number of channels of a kind of pixels. -/
def channels? : UInt8 → Option Nat
  | 0 => some 1
  | 2 => some 3
  | 6 => some 4
  | _ => none

/-- The image in a file. -/
def decode? (bs : Bytes) : Option Image := do
  guard (bs.take 8 = signature)
  let parts := chunks bs.length (bs.drop 8)
  let (_, header) ← parts.find? fun p => p.1 = headerType
  guard (header.slice 8 1 = [8] ∧ header.slice 10 3 = [0, 0, 0])
  let channels ← channels? ((header.slice 9 1).headD 1)
  let width := toNat4 (header.slice 0 4)
  let height := toNat4 (header.slice 4 4)
  let packed := (parts.filter fun p => p.1 = dataType).flatMap Prod.snd
  let data ← (Deflate.inflateZlib packed).toOption
  let rowSize := 1 + channels * width
  guard (0 < width ∧ 0 < height ∧ height * rowSize ≤ data.length)
  let cells := data.toArray
  guard ((List.range height).all fun y => cells.getD (y * rowSize) 1 = 0)
  return Image.ofFn width height fun x y =>
    let start := y * rowSize + 1 + channels * x
    ((colorOf? ((List.range channels).map fun i => cells.getD (start + i) 0))).getD default

end ArchiveExport.Png
