import ArchiveExport.Archive.Fault
import ArchiveExport.Data.OrderedMap

/-!
# Folder archives

Loose files below one or more folders make an archive, too. The key of a file is its path below
its folder. Where two files have the same key, the one of the higher priority is found, the later
one among equals. Files are read when they are asked for.
-/

namespace ArchiveExport

open Archive (Fault Notice)

/-- Where the file behind a key is. -/
structure LooseFile where
  text : String
  priority : Int
  deriving DecidableEq

/-- The files below the opened folders by their keys. -/
structure FolderArchive where
  files : OrderedMap String LooseFile := {}

namespace FolderArchive

/-- The spelling of keys: slashes forward and none in front. -/
def normalize (key : String) : String :=
  Text.dropLeading '/' (Text.replace '\\' '/' key)

/-- Take a file in under its key, unless one of higher priority has it. -/
def add (files : OrderedMap String LooseFile) (key : String) (file : LooseFile) :
    OrderedMap String LooseFile :=
  match files.find? key with
  | some current => if current.priority ≤ file.priority then files.insert key file else files
  | none => files.insert key file

/-- The files that a walk below a folder comes upon, by the names that lead to them. A folder whose
own path is too long to be listed is passed over without a word. -/
def listed (disk : Disk) (root : AbsolutePath) : List (Path × Bytes) :=
  (disk.filesBelow root.place).filter fun found => (root.below found.1.dropLast).Fits

/-- Open a folder, and say whether that worked. -/
def «open» (a : FolderArchive) (disk : Disk) (working : AbsolutePath) (path : String)
    (priority : Int) : FolderArchive × List Notice × Bool :=
  if !disk.isFolder working.place path then (a, [.noFolder path], false)
  else
    let root := AbsolutePath.ofText working path
    (⟨(listed disk root).foldl
      (fun files (place, _) =>
        let below := Text.join "/" place
        add files (normalize below) ⟨Path.join root.text below, priority⟩)
      a.files⟩, [], true)

/-- The keys in the order of their characters. -/
def keys (a : FolderArchive) : List String :=
  a.files.keys.mergeSort fun a b => decide (a ≤ b)

/-- The file of a key in any spelling. -/
def file? (a : FolderArchive) (key : String) : Option LooseFile :=
  a.files.find? (normalize key)

/-- The size of the file of a key in any spelling. -/
def size? (a : FolderArchive) (disk : Disk) (key : String) : Except Fault (Option Nat) :=
  match a.file? key with
  | none => .ok none
  | some file =>
    match disk.look [] file.text with
    | .error fault => .error (.gone fault)
    | .ok (.file data) => .ok (some data.length)
    | .ok .folder => .ok (some 0)

/-- The data of the file of a key in any spelling. -/
def read (a : FolderArchive) (disk : Disk) (key : String) : Except Fault Bytes :=
  match a.file? key with
  | none => .error (.noEntry (normalize key))
  | some file => (disk.read [] file.text).mapError (.unreadable (normalize key))

end FolderArchive

end ArchiveExport
