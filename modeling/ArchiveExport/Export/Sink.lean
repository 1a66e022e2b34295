import ArchiveExport.Disk.Access
import ArchiveExport.Text.Charset

/-!
# Output folders

Outputs are written below one root folder under relative paths. A path is followed from the root
without looking at the disk; a path that does not end up below the root is refused, so nothing is
ever written outside of it. Folders on the way are made as needed.
-/

namespace ArchiveExport

/-- An output folder and the paths written to it so far, in order. -/
structure Sink where
  root : AbsolutePath
  written : List String := []

namespace Sink

/-- Why an output is not written. -/
inductive Fault where
  | escapes (path : String)
  | isRoot (path : String)
  | charset (fault : Text.Charset.Fault)
  | disk (fault : Disk.Fault)
  deriving DecidableEq

/-- The fault in words. -/
def Fault.message : Fault → String
  | .escapes path => s!"Output path escapes the output directory: {path}"
  | .isRoot path => s!"Output path is empty: {Text.quote path}"
  | .charset fault => fault.message
  | .disk fault => fault.message

/-- The names of a relative path: backslashes separate too, and slashes in front do not count. -/
def names (path : String) : List String :=
  Text.split '/' (Text.dropLeading '/' (Text.replace '\\' '/' path))

/-- The place of a relative path, which lies below the root. -/
def resolve (sink : Sink) (path : String) : Except Fault AbsolutePath :=
  let root := sink.root.place
  let place := Path.follow root (names path)
  if place = root then .error (.isRoot path)
  else if root ≠ [] ∧ root.isPrefixOf place then .ok ⟨sink.root.lead, place⟩
  else .error (.escapes path)

/-- Write octets under a relative path. -/
def write (sink : Sink) (disk : Disk) (path : String) (data : Bytes) :
    Sink × Disk × Except Fault AbsolutePath :=
  match sink.resolve path with
  | .error fault => (sink, disk, .error fault)
  | .ok target =>
    match disk.makeFolders [] (Path.folder target.text) with
    | (disk, .error fault) => (sink, disk, .error (.disk fault))
    | (disk, .ok ()) =>
      match disk.write [] target.text data with
      | .error fault => (sink, disk, .error (.disk fault))
      | .ok disk => ({ sink with written := sink.written ++ [path] }, disk, .ok target)

theorem write_of_resolve_eq_error {sink : Sink} {path : String} {fault : Fault}
    (h : sink.resolve path = .error fault) (disk : Disk) (data : Bytes) :
    sink.write disk path data = (sink, disk, .error fault) := by
  unfold write
  rw [h]

theorem write_of_resolve_eq_ok {sink : Sink} {path : String} {target : AbsolutePath}
    (h : sink.resolve path = .ok target) (disk : Disk) (data : Bytes) :
    sink.write disk path data =
      match disk.makeFolders [] (Path.folder target.text) with
      | (disk, .error fault) => (sink, disk, .error (.disk fault))
      | (disk, .ok ()) =>
        match disk.write [] target.text data with
        | .error fault => (sink, disk, .error (.disk fault))
        | .ok disk => ({ sink with written := sink.written ++ [path] }, disk, .ok target) := by
  unfold write
  rw [h]

/-- Write a text in a named encoding under a relative path. -/
def writeText (sink : Sink) (charsets : Text.Charset.Registry) (disk : Disk)
    (path text encoding : String) : Sink × Disk × Except Fault AbsolutePath :=
  match sink.resolve path with
  | .error fault => (sink, disk, .error fault)
  | .ok _ =>
    match Text.Charset.encodeNamed charsets encoding text with
    | .error fault => (sink, disk, .error (.charset fault))
    | .ok data => sink.write disk path data

end Sink

end ArchiveExport
