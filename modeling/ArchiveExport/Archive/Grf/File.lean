import ArchiveExport.Archive.Fault
import ArchiveExport.Archive.Grf.Table

/-!
# GRF files

A GRF file starts with a header of 46 octets that says where its file table is; the table is
deflated. An opened file keeps its contents as they were when it was opened; that a file is written
over in place while it is open is outside of this.
-/

namespace ArchiveExport.Grf

open Archive (Fault Notice)

/-- A GRF file, opened or not. -/
structure File where
  path : String
  priority : Int
  version : Nat := 0
  count : Int := 0
  /-- The octets of the file when it was opened, none while it is closed. -/
  data : Option Bytes := none
  entries : OrderedMap String Entry := {}

namespace File

/-- The octets that every file starts with. -/
def signature : Bytes := Bytes.ofString "Master of Magic"

/-- The number of octets of the header. -/
def headerSize : Nat := 46

/-- The version that is read without a notice. -/
def knownVersion : Nat := 0x200

/-- The file behind its header, closed. -/
def close (f : File) : File := { f with data := none }

/-- Take over the version and the count of a header; none if it is no header. -/
def readHeader (f : File) (data : Bytes) : List Notice × Option (File × Nat) :=
  let header : Bytes := data.take headerSize
  if header.length < headerSize then ([.headerCut f.path], none)
  else if header.take 15 ≠ signature then ([.signature f.path], none)
  else
    let version := Bytes.toNat (header.slice 42 4)
    let f := { f with version := version, count := (Bytes.toNat (header.slice 38 4) : Int) - 7 }
    (if version = knownVersion then [] else [.version version],
      some (f, Bytes.toNat (header.slice 30 4)))

/-- What is said about the rows of a table. -/
def rowNotices (path : String) (rows : List Row) (cut : Bool) : List Notice :=
  ((rows.filter fun row => row.isFile && row.isSuspicious).map fun _ => .suspicious path) ++
    if cut then [.rowsCut path] else []

/-- The rows of the table at an offset behind the header. -/
def readTable (path : String) (data : Bytes) (offset : Nat) : Except Notice (List Row × Bool) :=
  let table := data.drop (headerSize + offset)
  let sizes := table.take 8
  if sizes.length < 8 then .error (.noTable path)
  else
    let size := Bytes.toNat (sizes.take 4)
    let deflated := (table.drop 8).take size
    if deflated.length < size then .error .tableCut
    else
      match Deflate.inflateZlib deflated with
      | .error fault => .error (.tableFault fault)
      | .ok octets => .ok (rows octets)

/-- Read header and table of an opened file. -/
def load (f : File) (data : Bytes) : File × List Notice × Bool :=
  match f.readHeader data with
  | (notices, none) => (f.close, notices, false)
  | (notices, some (f, offset)) =>
    match readTable f.path data offset with
    | .error notice => (f.close, notices ++ [notice], false)
    | .ok (rows, cut) =>
      ({ f with data := some data, entries := entriesOf rows f.path f.priority },
        notices ++ rowNotices f.path rows cut, true)

/-- Open a file, or open it again, and say whether that worked. -/
def «open» (f : File) (disk : Disk) (working : Path) : File × List Notice × Bool :=
  match disk.read working f.path with
  | .error fault => (f.close, [.unreadable f.path fault], false)
  | .ok data => f.load data

/-- The stored octets of an entry. -/
def readStored (f : File) (e : Entry) : Except Fault Bytes :=
  match f.data with
  | none => .error (.closed f.path)
  | some data =>
    let stored := data.slice (headerSize + e.offset) e.storedSize
    if stored.length < e.storedSize then .error (.truncated e.key stored.length e.storedSize)
    else .ok stored

end File

/-- The data of an entry from its stored octets: a zlib stream, a bare deflate stream, or the
octets themselves where their size is the real one already. A real size of zero fits all data. -/
def inflateEntry (e : Entry) (stored : Bytes) : Except Fault Bytes :=
  let fits (data : Bytes) : Bool := e.realSize = 0 || data.length = e.realSize
  if !e.isDeflated then .ok stored
  else
    match (Deflate.inflateZlib stored).toOption.filter fits with
    | some data => .ok data
    | none =>
      match (Deflate.inflate stored).toOption.filter fits with
      | some data => .ok data
      | none => .error (.inflate e.key)

end ArchiveExport.Grf
