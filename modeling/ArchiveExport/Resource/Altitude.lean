import ArchiveExport.Data.OrderedMap
import ArchiveExport.Resource.Layout
import ArchiveExport.Resource.Version

/-!
# Altitude maps

An altitude map is a grid of cells, each with the heights of its four corners and a terrain type.
Decoding sums it up: the size of the grid, the lowest and the highest corner, and how many cells
there are of each terrain. What follows the last cell has no influence.
-/

namespace ArchiveExport

/-- A cell: four heights and a terrain type. -/
structure Cell where
  corners : List Binary32
  terrain : Int32

/-- The summary of an altitude map. -/
structure AltitudeMap where
  version : Version
  width : Nat
  height : Nat
  lowest : Binary64
  highest : Binary64
  terrain : OrderedMap String Nat

namespace AltitudeMap

/-- Why octets are no altitude map. -/
inductive Fault where
  | signature
  | dimensions (width height : Int)
  | truncated (size expected : Nat)
  deriving DecidableEq

/-- The fault in words. -/
def Fault.message : Fault → String
  | .signature => "invalid GAT signature"
  | .dimensions width height => s!"invalid dimensions {width}x{height}"
  | .truncated size expected => s!"truncated: {size} bytes, expected {expected}"

/-- The number of octets in front of the cells. -/
def headerSize : Nat := 14

/-- How a cell is stored. -/
def cellLayout : Layout ((Binary32 × Binary32 × Binary32 × Binary32) × Int32) :=
  Layout.float32.quad.pair Layout.int32

/-- The number of octets of a cell. -/
def cellSize : Nat := 20

/-- The name of a terrain type. -/
def terrainName (terrain : Int) : String :=
  match terrain with
  | 0 => "walkable"
  | 1 => "blocked"
  | 2 => "water_nonwalkable"
  | 3 => "water_walkable"
  | 4 => "water_snipable"
  | 5 => "cliff_snipable"
  | 6 => "cliff"
  | n => s!"type_{n}"

/-- Read so many cells. -/
def readCells : Nat → Bytes → List Cell → List Cell
  | 0, _, done => done.reverse
  | count + 1, bs, done =>
    let ((a, b, c, d), terrain) := cellLayout.decode (bs.take cellSize)
    readCells count (bs.drop cellSize) (⟨[a, b, c, d], terrain⟩ :: done)

/-- The smaller of two heights; a height that cannot be compared leaves the first one. -/
def lower (a b : Binary64) : Binary64 := if b.lt a then b else a

/-- The larger of two heights; a height that cannot be compared leaves the first one. -/
def higher (a b : Binary64) : Binary64 := if a.lt b then b else a

/-- The summary with one more cell. -/
def addCell (m : AltitudeMap) (cell : Cell) : AltitudeMap :=
  let heights := cell.corners.map Binary32.toBinary64
  { m with
    lowest := heights.foldl lower m.lowest
    highest := heights.foldl higher m.highest
    terrain := m.terrain.alter (terrainName cell.terrain.toInt) fun n => n.getD 0 + 1 }

/-- The summary of the map in a file. -/
def decode (bs : Bytes) : Except Fault AltitudeMap := do
  let size := bs.length
  if size < headerSize ∨ bs.take 4 ≠ [0x47, 0x52, 0x41, 0x54] then throw .signature
  let version : Version := ⟨Bytes.toNat (bs.slice 4 1), Bytes.toNat (bs.slice 5 1)⟩
  let width := (Layout.int32.decode (bs.slice 6 4)).toInt
  let height := (Layout.int32.decode (bs.slice 10 4)).toInt
  if width < 0 ∨ height < 0 then throw (.dimensions width height)
  let count := width.toNat * height.toNat
  let expected := headerSize + count * cellSize
  if size < expected then throw (.truncated size expected)
  let zero := Binary64.zero false
  if count = 0 then
    return ⟨version, width.toNat, height.toNat, zero, zero, .empty⟩
  let start : AltitudeMap :=
    ⟨version, width.toNat, height.toNat, .infinity false, .infinity true, .empty⟩
  return (readCells count (bs.drop headerSize) []).foldl addCell start

end AltitudeMap

end ArchiveExport
