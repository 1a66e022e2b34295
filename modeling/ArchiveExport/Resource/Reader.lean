import ArchiveExport.Resource.Layout
import ArchiveExport.Text.EucKr
import ArchiveExport.Text.Utf8

/-!
# Reading records from a byte string

A reader is a position in a byte string. Reading moves it forward by exactly the octets that were
read; where fewer are left than a field needs, the read fails and the reader stays where it was.
A position below zero counts from the end of the byte string. Names are stored in fields of fixed
size and end at the first NUL.
-/

namespace ArchiveExport

namespace Reader

/-- How many octets stand in front of a position. -/
def start (size : Nat) (offset : Int) : Nat :=
  if offset < 0 then (size + offset).toNat else offset.toNat

end Reader

/-- A position in a byte string, with the size of the byte string and what follows the position. -/
structure Reader where
  data : Bytes
  size : Nat
  offset : Int
  rest : Bytes
  size_eq : size = data.length
  rest_eq : rest = data.drop (Reader.start size offset)

namespace Reader

/-- Why a read fails. -/
inductive Fault where
  /-- A record of `width` octets does not fit behind `offset` in `size` octets. -/
  | record (width : Nat) (offset : Int) (size : Nat)
  /-- A record of `width` octets at `offset` passes the end that its position counts from. -/
  | pastEnd (width : Nat) (offset : Int)
  /-- A position counts back past the first of `size` octets. -/
  | beforeStart (offset : Int) (size : Nat)
  /-- So many octets cannot be skipped at `offset`. -/
  | skip (count offset : Int)
  /-- A name field of so many octets is cut. -/
  | name (length : Int)
  /-- A stored count is out of its bounds. -/
  | count (n : Int)
  deriving DecidableEq

/-- The fault in words. -/
def Fault.message : Fault → String
  | .record width offset size =>
    s!"unpack_from requires a buffer of at least {offset + width} bytes for unpacking {width} " ++
      s!"bytes at offset {offset} (actual buffer size is {size})"
  | .pastEnd width offset => s!"not enough data to unpack {width} bytes at offset {offset}"
  | .beforeStart offset size => s!"offset {offset} out of range for {size}-byte buffer"
  | .skip n offset => s!"need {n} bytes at offset {offset}"
  | .name length => s!"string of {length} bytes truncated"
  | .count n => s!"count {n} is out of bounds"

/-- The reader at an offset of a byte string. -/
def ofBytes (bs : Bytes) (offset : Int) : Reader :=
  ⟨bs, bs.length, offset, bs.drop (start bs.length offset), rfl, rfl⟩

/-- How many octets are left, negative behind the end. -/
def remaining (r : Reader) : Int := r.size - r.offset

/-- The reader at another position. -/
def seek (r : Reader) (offset : Int) : Reader :=
  ⟨r.data, r.size, offset, r.data.drop (start r.size offset), r.size_eq, rfl⟩

/-- Moving on from a position that does not count from the end. -/
theorem drop_rest (r : Reader) {count : Int} (hoffset : 0 ≤ r.offset) (hcount : 0 ≤ count) :
    r.rest.drop count.toNat = r.data.drop (start r.size (r.offset + count)) := by
  have hsum : start r.size (r.offset + count) = r.offset.toNat + count.toNat := by
    unfold start
    rw [if_neg (by omega)]
    omega
  rw [r.rest_eq, List.drop_drop, hsum, start, if_neg (by omega)]

/-- The reader some octets further on. -/
def advance (r : Reader) (count : Int) : Reader :=
  if h : 0 ≤ r.offset ∧ 0 ≤ count then
    ⟨r.data, r.size, r.offset + count, r.rest.drop count.toNat, r.size_eq, r.drop_rest h.1 h.2⟩
  else
    r.seek (r.offset + count)

/-- Moving on is going to the position behind. -/
theorem advance_eq_seek (r : Reader) (count : Int) :
    r.advance count = r.seek (r.offset + count) := by
  unfold advance
  split
  · next h => simp only [seek, r.drop_rest h.1 h.2]
  · rfl

/-- Whether a field of so many octets lies within the byte string. One without octets lies
anywhere; one whose position counts from the end has to stop short of it. -/
def holds (r : Reader) (length : Int) : Bool :=
  length = 0 || (0 < length &&
    if r.offset < 0 then -r.size ≤ r.offset && r.offset + length < 0 else length ≤ r.remaining)

/-- A name field's text: the octets before the first NUL, in UTF-8 or else in EUC-KR. -/
def nameText (field : Bytes) : String :=
  let octets := field.takeWhile (· ≠ 0)
  match Text.Utf8.decode octets with
  | .ok cs => String.ofList cs
  | .error _ => String.ofList (Text.EucKr.decodeLossy octets)

end Reader

/-- An action that reads records one after the other and may fail. -/
abbrev Reading (α : Type) : Type := StateT Reader (Except Reader.Fault) α

namespace Reading

variable {α : Type}

/-- Read the octets of a record of fixed width. -/
def block (width : Nat) : Reading Bytes := fun r =>
  if r.offset < 0 ∧ 0 < r.offset + width then .error (.pastEnd width r.offset)
  else if r.offset < -r.size then .error (.beforeStart r.offset r.size)
  else if r.remaining < width then .error (.record width r.offset r.size)
  else .ok (r.rest.take width, r.advance width)

/-- Read a record. -/
def record (layout : Layout α) : Reading α := do
  return layout.decode (← block layout.width)

/-- Pass over some octets; a negative count goes back. -/
def skip (count : Int) : Reading Unit := fun r =>
  if r.remaining < count then .error (.skip count r.offset) else .ok ((), r.advance count)

/-- Read a name field of `length` octets. -/
def name (length : Int) : Reading String := fun r =>
  if r.holds length then .ok (Reader.nameText (r.rest.take length.toNat), r.advance length)
  else .error (.name length)

/-- Refuse a count. -/
def badCount (n : Int) : Reading α := fun _ => .error (.count n)

/-- How many octets are left. -/
def remaining : Reading Int := fun r => .ok (r.remaining, r)

/-- Read as many values as a number says. -/
def times (read : Reading α) : Nat → Reading (List α)
  | 0 => return []
  | n + 1 => do
    let value ← read
    let values ← times read n
    return value :: values

/-- Read at most so many values, stopping before the first that has not `width` octets left. -/
def timesWhile (width : Nat) (read : Reading α) : Nat → Reading (List α)
  | 0 => return []
  | n + 1 => do
    if (← remaining) < width then
      return []
    let value ← read
    let values ← timesWhile width read n
    return value :: values

end Reading

end ArchiveExport
