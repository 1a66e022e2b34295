import ArchiveExport.Bytes.Basic
import ArchiveExport.Data.OrderedMap
import ArchiveExport.Text.EucKr
import ArchiveExport.Text.Basic
import ArchiveExport.Text.Lowercase

/-!
# File tables

The file table of a GRF archive lists rows one behind the other: a name up to its NUL, the stored,
aligned and real sizes, the flags and the offset of the data. A row counts as an entry when its
file flag is set, its name and its real size are not out of proportion, and its name is not empty
once it is normalized. Names are compared without regard to case and to the direction of slashes.
-/

namespace ArchiveExport.Grf

/-- A row of a file table. -/
structure Row where
  name : Bytes
  alignedSize : Nat
  realSize : Nat
  flags : UInt8
  offset : Nat
  deriving DecidableEq

namespace Row

/-- The number of octets behind a row's name. -/
def size : Nat := 17

/-- The longest name, in octets. -/
def maxName : Nat := 260

/-- The largest real size. -/
def maxSize : Nat := 500 * 1024 * 1024

/-- Whether a row stands for a file. -/
def isFile (row : Row) : Bool := row.flags.toNat.testBit 0

/-- Whether a row's name or real size is out of proportion. -/
def isSuspicious (row : Row) : Bool :=
  maxName < row.name.length || maxSize < row.realSize

/-- The name as text. -/
def nameText (row : Row) : String :=
  String.ofList (Text.EucKr.decodeLossy row.name)

/-- The row of a name and the octets behind it. -/
def decode (name info : Bytes) : Row where
  name := name
  alignedSize := Bytes.toNat (info.slice 4 4)
  realSize := Bytes.toNat (info.slice 8 4)
  flags := (info.slice 12 1).headD 0
  offset := Bytes.toNat (info.slice 13 4)

end Row

/-- What stands at the front of the rest of a table. -/
inductive Scan where
  /-- No further name. -/
  | stop
  /-- A name without a whole row behind it. -/
  | cut
  | row (row : Row) (rest : Bytes)

/-- Look at the front of the rest of a table. -/
def scan (bs : Bytes) : Scan :=
  let name := bs.takeWhile (· ≠ 0)
  match bs.drop name.length with
  | [] => .stop
  | _ :: behind =>
    let info := behind.take Row.size
    if info.length < Row.size then .cut else .row (.decode name info) (behind.drop Row.size)

theorem length_lt_of_scan {bs rest : Bytes} {row : Row} (h : scan bs = .row row rest) :
    rest.length < bs.length := by
  simp only [scan] at h
  split at h
  · exact absurd h (by simp)
  · next b behind hdrop =>
    split at h
    · exact absurd h (by simp)
    · injection h with _ hrest
      have hlen := congrArg List.length hdrop
      simp only [List.length_drop, List.length_cons] at hlen
      rw [← hrest, List.length_drop]
      omega

/-- The rows of a table, and whether its last row is cut. -/
def rows (bs : Bytes) : List Row × Bool :=
  match h : scan bs with
  | .stop => ([], false)
  | .cut => ([], true)
  | .row row rest =>
    have := length_lt_of_scan h
    let (others, cut) := rows rest
    (row :: others, cut)
termination_by bs.length

/-- The spelling under which names are compared: slashes forward, none in front, lower case. -/
def normalize (name : String) : String :=
  Text.lower (Text.dropLeading '/' (Text.replace '\\' '/' name))

/-- A file of an archive. -/
structure Entry where
  key : String
  originalName : String
  storedSize : Nat
  realSize : Nat
  offset : Nat
  flags : UInt8
  archivePath : String
  priority : Int
  deriving DecidableEq

namespace Entry

/-- Whether the data is encrypted in one of two ways. -/
def isEncrypted (e : Entry) : Bool :=
  e.flags.toNat.testBit 1 || e.flags.toNat.testBit 2

/-- Whether the data is deflated, which shows in its sizes. -/
def isDeflated (e : Entry) : Bool :=
  e.storedSize ≠ e.realSize

end Entry

/-- The entry of a row, if it counts as one. -/
def Row.accepted? (row : Row) (archivePath : String) (priority : Int) : Option Entry :=
  let name := row.nameText
  let key := normalize name
  if row.isFile && !row.isSuspicious && key ≠ "" then
    some ⟨key, name, row.alignedSize, row.realSize, row.offset, row.flags, archivePath, priority⟩
  else
    none

/-- The entries of rows by their keys; a later row takes the place of an earlier one. -/
def entriesOf (rows : List Row) (archivePath : String) (priority : Int) :
    OrderedMap String Entry :=
  .ofList ((rows.filterMap (·.accepted? archivePath priority)).map fun e => (e.key, e))

end ArchiveExport.Grf
