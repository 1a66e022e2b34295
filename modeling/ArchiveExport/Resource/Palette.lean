import ArchiveExport.Image.Basic

/-!
# Palettes

A palette file lists 256 colours of four octets each. The first colour is transparent whatever
the file says, and a colour stored with no opacity at all is meant to be opaque.
-/

namespace ArchiveExport

/-- A palette of 256 colours. -/
structure Palette where
  colors : Vector Color 256

namespace Palette

/-- The number of octets of a palette. -/
def size : Nat := 1024

/-- The palette whose colour at `i` is `f i c`, where `c` is the stored one. -/
def ofTable (table : Bytes) (f : Nat → Color → Color) : Palette :=
  let cells := table.toArray
  ⟨Vector.ofFn fun i => f i.val
    ⟨cells.getD (4 * i.val) 0, cells.getD (4 * i.val + 1) 0, cells.getD (4 * i.val + 2) 0,
      cells.getD (4 * i.val + 3) 0⟩⟩

/-- The colour under an index. -/
def color (p : Palette) (index : UInt8) : Color :=
  p.colors.get ⟨index.toNat, index.toNat_lt⟩

/-- The channels of all colours in order. -/
def octets (p : Palette) : Bytes :=
  p.colors.toList.flatMap Color.octets

/-- A stored colour as it is meant. -/
def meant (index : Nat) (c : Color) : Color :=
  if index = 0 then { c with alpha := 0 }
  else if c.alpha = 0 then { c with alpha := 255 }
  else c

/-- A stored colour of a sprite's own palette, where no opacity is stored. -/
def opaqueBut0 (index : Nat) (c : Color) : Color :=
  { c with alpha := if index = 0 then 0 else 255 }

/-- The shades of grey, the first one transparent. -/
def grey : Palette :=
  ⟨Vector.ofFn fun i =>
    let shade := UInt8.ofNat i.val
    ⟨shade, shade, shade, if i.val = 0 then 0 else 255⟩⟩

/-- Why octets are no palette. -/
inductive Fault where
  | tooSmall (size : Nat)
  deriving DecidableEq

/-- The fault in words. -/
def Fault.message : Fault → String
  | .tooSmall n => s!"palette data too small: {n} bytes (expected {size})"

/-- The palette in the first octets of a file. -/
def decode (bs : Bytes) : Except Fault Palette :=
  if bs.length < size then .error (.tooSmall bs.length) else .ok (ofTable (bs.take size) meant)

/-- The grey of the checkerboard behind transparent cells, in fields of four pixels. -/
def checker (x y : Nat) : UInt8 :=
  if (x / 4 + y / 4) % 2 = 1 then 192 else 128

/-- The swatch of a palette: its colours in 16 rows of square cells. A colour of less than half
opacity shows the checkerboard. -/
def swatch (p : Palette) (cell : Nat) : Image :=
  Image.ofFn (16 * cell) (16 * cell) fun x y =>
    let c := p.color (UInt8.ofNat (y / cell * 16 + x / cell))
    if c.alpha < 128 then ⟨checker x y, checker x y, checker x y, 255⟩ else { c with alpha := 255 }

end Palette

end ArchiveExport
