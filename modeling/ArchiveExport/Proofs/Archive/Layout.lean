import ArchiveExport.Archive.Grf.File

/-!
# The layout of GRF files

How rows and whole files are written down.
-/

namespace ArchiveExport

/-- A field is read back from behind as many octets as its offset says. -/
theorem Bytes.slice_append {before field : Bytes} {offset width : Nat} (behind : Bytes)
    (hbefore : before.length = offset) (hfield : field.length = width) :
    Bytes.slice (before ++ (field ++ behind)) offset width = field := by
  subst hbefore hfield
  rw [Bytes.slice, List.drop_left, List.take_left]

namespace Grf

/-! ### Rows -/

namespace Row

/-- The octets behind a row's name. The size before alignment is not read back, so the aligned one
stands for both. -/
def fields (row : Row) : Bytes :=
  Bytes.ofNat 4 row.alignedSize ++ (Bytes.ofNat 4 row.alignedSize ++
    (Bytes.ofNat 4 row.realSize ++ ([row.flags] ++ Bytes.ofNat 4 row.offset)))

/-- A row as octets. -/
def encode (row : Row) : Bytes :=
  row.name ++ 0 :: row.fields

/-- What a row can hold: a name without NUL, and numbers of four octets. -/
structure Fits (row : Row) : Prop where
  name : 0 ∉ row.name
  alignedSize : row.alignedSize < Nat.pow 256 4
  realSize : row.realSize < Nat.pow 256 4
  offset : row.offset < Nat.pow 256 4

end Row

/-! ### Files -/

/-- A file with its data right behind the header and its table, stored in a zlib stream, at the
end. -/
def File.layout (table : List Row) (body : Bytes) : Bytes :=
  let octets := table.flatMap Row.encode
  let stored := Deflate.storeZlib octets
  signature ++ List.replicate 15 0 ++ Bytes.ofNat 4 body.length ++ Bytes.ofNat 4 0 ++
    Bytes.ofNat 4 (table.length + 7) ++ Bytes.ofNat 4 knownVersion ++ body ++
    Bytes.ofNat 4 stored.length ++ Bytes.ofNat 4 octets.length ++ stored

end Grf

end ArchiveExport
