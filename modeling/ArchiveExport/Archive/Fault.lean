import ArchiveExport.Deflate.Inflate
import ArchiveExport.Disk.Access

/-!
# Archive faults and notices

Why an archive cannot be opened or an entry cannot be read, and the notices that are given while
archives are opened.
-/

namespace ArchiveExport.Archive

/-- Why an archive or one of its entries cannot be read. -/
inductive Fault where
  /-- No entry has the key. -/
  | noEntry (key : String)
  | encrypted (key : String)
  /-- The stored octets of an entry end early. -/
  | truncated (key : String) (size expected : Nat)
  /-- The stored octets of an entry do not inflate to its size. -/
  | inflate (key : String)
  /-- The archive file of an entry is no longer loaded. -/
  | notLoaded (path : String)
  | closed (path : String)
  /-- The file behind a key cannot be read. -/
  | unreadable (key : String) (fault : Disk.Fault)
  /-- The file behind a key cannot be looked at. -/
  | gone (fault : Disk.Fault)
  | noPaths
  | noProvider (path : String)
  | mixed
  | opening (path : String)
  deriving DecidableEq

/-- The fault in words. -/
def Fault.message : Fault → String
  | .noEntry key => s!"Entry not found: {key}"
  | .encrypted key => s!"Encrypted GRF entry is not supported: {key}"
  | .truncated key size expected =>
    s!"Truncated entry {key}: read {size} bytes, expected {expected}"
  | .inflate key => s!"Failed to inflate GRF entry: {key}"
  | .notLoaded path => s!"GRF no longer loaded: {path}"
  | .closed path => s!"GRF is closed: {path}"
  | .unreadable key fault => s!"Failed to read {key}: {fault.message}"
  | .gone fault => fault.message
  | .noPaths => "No archive paths given"
  | .noProvider path => s!"No archive provider can open: {path}"
  | .mixed => "All archive paths must have the same format"
  | .opening path => s!"Failed to open archive: {path}"

/-- What is said while archives are opened. -/
inductive Notice where
  | noFile (path : String)
  | noFolder (path : String)
  | unreadable (path : String) (fault : Disk.Fault)
  | headerCut (path : String)
  | signature (path : String)
  | version (version : Nat)
  | noTable (path : String)
  | tableCut
  | tableFault (fault : Deflate.Fault)
  | rowsCut (path : String)
  | suspicious (path : String)
  | loaded (name : String) (priority : Int) (count : Nat)
  deriving DecidableEq

/-- The digits of a number to the base sixteen, in upper case. -/
def upperHex (n : Nat) : String :=
  String.ofList ((Nat.toDigits 16 n).map Char.toUpper)

/-- The notice as a line of text. -/
def Notice.message : Notice → String
  | .noFile path => s!"[ERROR] GRF file not found: {path}"
  | .noFolder path => s!"[ERROR] Directory not found: {path}"
  | .unreadable path fault => s!"[ERROR] Failed to open GRF {path}: {fault.message}"
  | .headerCut path => s!"[ERROR] GRF header truncated: {path}"
  | .signature path => s!"[ERROR] Invalid GRF signature in {path}"
  | .version n => s!"[WARN] Unsupported GRF version: 0x{upperHex n} (expected 0x200)"
  | .noTable path => s!"[ERROR] Failed to read file table header: {path}"
  | .tableCut => "[ERROR] Failed to read complete file table"
  | .tableFault fault => s!"[ERROR] Failed to decompress file table: {fault.message}"
  | .rowsCut path => s!"[WARN] File table truncated in {path}"
  | .suspicious path => s!"[WARN] Skipping suspicious entry in {path}"
  | .loaded name priority count =>
    s!"[INFO] Loaded GRF: {name} (priority {priority}, {count} files)"

end ArchiveExport.Archive
