import ArchiveExport.Bytes.Basic
import ArchiveExport.Number.Binary32

/-!
# Fields of fixed width

A layout says how a value is stored in a fixed number of octets. The formats store their numbers
with the low octet first and without padding, so a record's layout is built from its fields by
pairing. Each layout carries the law that a stored value is read back.
-/

namespace ArchiveExport

/-- How a value is stored in a fixed number of octets. -/
structure Layout (α : Type) where
  width : Nat
  decode : Bytes → α
  encode : α → Bytes
  length_encode : ∀ a, (encode a).length = width
  decode_encode : ∀ a, decode (encode a) = a

namespace Layout

variable {α β : Type}

/-- One octet. -/
def uint8 : Layout UInt8 where
  width := 1
  decode bs := UInt8.ofNat (Bytes.toNat bs)
  encode a := Bytes.ofNat 1 a.toNat
  length_encode a := Bytes.length_ofNat 1 a.toNat
  decode_encode a := by
    rw [Bytes.toNat_ofNat (by simpa using a.toNat_lt)]
    exact UInt8.ofNat_toNat

/-- An unsigned number of two octets. -/
def uint16 : Layout UInt16 where
  width := 2
  decode bs := UInt16.ofNat (Bytes.toNat bs)
  encode a := Bytes.ofNat 2 a.toNat
  length_encode a := Bytes.length_ofNat 2 a.toNat
  decode_encode a := by
    rw [Bytes.toNat_ofNat (by simpa using a.toNat_lt)]
    exact UInt16.ofNat_toNat

/-- An unsigned number of four octets. -/
def uint32 : Layout UInt32 where
  width := 4
  decode bs := UInt32.ofNat (Bytes.toNat bs)
  encode a := Bytes.ofNat 4 a.toNat
  length_encode a := Bytes.length_ofNat 4 a.toNat
  decode_encode a := by
    rw [Bytes.toNat_ofNat (by simpa using a.toNat_lt)]
    exact UInt32.ofNat_toNat

/-- A layout whose values are read through one map and written through another that it undoes. -/
def map (l : Layout α) (ahead : α → β) (back : β → α) (h : ∀ b, ahead (back b) = b) :
    Layout β where
  width := l.width
  decode bs := ahead (l.decode bs)
  encode b := l.encode (back b)
  length_encode b := l.length_encode (back b)
  decode_encode b := by rw [l.decode_encode, h]

/-- A signed number of four octets in two's complement. -/
def int32 : Layout Int32 :=
  uint32.map Int32.ofUInt32 Int32.toUInt32 fun _ => rfl

/-- A real number of four octets. -/
def float32 : Layout Binary32 :=
  uint32.map Binary32.mk Binary32.bits fun _ => rfl

/-- The first value and behind it the second. -/
def pair (l : Layout α) (m : Layout β) : Layout (α × β) where
  width := l.width + m.width
  decode bs := (l.decode (bs.take l.width), m.decode (bs.drop l.width))
  encode p := l.encode p.1 ++ m.encode p.2
  length_encode p := by simp [l.length_encode, m.length_encode]
  decode_encode p := by
    rw [List.take_left' (l.length_encode p.1), List.drop_left' (l.length_encode p.1),
      l.decode_encode, m.decode_encode]

/-- Three values of one kind. -/
def triple (l : Layout α) : Layout (α × α × α) :=
  l.pair (l.pair l)

/-- Four values of one kind. -/
def quad (l : Layout α) : Layout (α × α × α × α) :=
  l.pair l.triple

end Layout

end ArchiveExport
