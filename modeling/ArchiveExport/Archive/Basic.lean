import ArchiveExport.Archive.Folder
import ArchiveExport.Archive.Grf.Store

/-!
# Archives

An archive is a store of GRF files or a set of loose files, found by keys. One or more sources of
the same kind are opened together; the later a source, the higher its priority.
-/

namespace ArchiveExport

/-- The two kinds of archives. -/
inductive Provider where
  | grf
  | folder
  deriving DecidableEq

/-- An archive. -/
inductive Archive where
  | grf (store : Grf.Store)
  | folder (files : FolderArchive)

namespace Archive

/-- What is known about an entry without reading it. -/
structure EntryInfo where
  key : String
  size : Nat
  /-- The stored size, or the size where none is recorded. -/
  storedSize : Nat
  source : String

/-- The kind of an archive. -/
def provider : Archive → Provider
  | .grf _ => .grf
  | .folder _ => .folder

/-- The name of an archive's kind. -/
def formatName : Archive → String
  | .grf _ => "GRF archive"
  | .folder _ => "Directory"

/-- The spelling of a key under which its entry is found. -/
def normalize : Archive → String → String
  | .grf _ => Grf.normalize
  | .folder _ => FolderArchive.normalize

/-- All keys. -/
def keys : Archive → List String
  | .grf store => store.keys
  | .folder files => files.keys

/-- What is known about the entry of a key. -/
def info? (a : Archive) (disk : Disk) (key : String) : Except Fault (Option EntryInfo) :=
  match a with
  | .grf store =>
    .ok <| (store.find? key).map fun e =>
      ⟨e.key, e.realSize, if e.storedSize = 0 then e.realSize else e.storedSize, e.archivePath⟩
  | .folder files =>
    match files.file? key, files.size? disk key with
    | _, .error fault => .error fault
    | some file, .ok (some size) =>
      .ok (some ⟨FolderArchive.normalize key, size, size, file.text⟩)
    | _, _ => .ok none

/-- Whether there is an entry of a key. -/
def contains (a : Archive) (disk : Disk) (key : String) : Except Fault Bool :=
  (a.info? disk key).map Option.isSome

/-- The data of the entry of a key. -/
def read (a : Archive) (disk : Disk) (key : String) : Except Fault Bytes × Archive :=
  match a with
  | .grf store =>
    let (result, store) := store.read key
    (result, .grf store)
  | .folder files => (files.read disk key, a)

/-- What is known about all entries. -/
def entries (a : Archive) (disk : Disk) : Except Fault (List EntryInfo) := do
  let infos ← a.keys.mapM (a.info? disk)
  return infos.filterMap id

/-- The sizes of all entries together. -/
def totalSize (a : Archive) (disk : Disk) : Except Fault Nat := do
  return (← a.entries disk).foldl (fun total e => total + e.size) 0

/-- Close all sources. -/
def close : Archive → Archive
  | .grf store => .grf store.close
  | .folder _ => .folder {}

/-- Open one more source, and say whether that worked. -/
def openSource (a : Archive) (disk : Disk) (working : AbsolutePath) (path : String)
    (priority : Int) : Archive × List Notice × Bool :=
  match a with
  | .grf store =>
    let (store, notices, worked) := store.open disk working.place path priority
    (.grf store, notices, worked)
  | .folder files =>
    let (files, notices, worked) := files.open disk working path priority
    (.folder files, notices, worked)

/-- The kind of archive that a path names. -/
def providerFor? (disk : Disk) (working : Path) (path : String) : Option Provider :=
  if disk.isFolder working path then some .folder
  else if Grf.Store.detect disk working path then some .grf
  else none

/-- The kind of archive that all paths name. -/
def commonProvider (disk : Disk) (working : Path) : List String → Except Fault Provider
  | [] => .error .noPaths
  | path :: paths => do
    let find (path : String) : Except Fault Provider :=
      match providerFor? disk working path with
      | some provider => .ok provider
      | none => .error (.noProvider path)
    let first ← find path
    paths.forM fun path => do
      if (← find path) ≠ first then throw .mixed
    return first

/-- The archive of a kind without sources. -/
def empty (provider : Provider) (cacheLimit : Int) : Archive :=
  match provider with
  | .grf => .grf (.new cacheLimit)
  | .folder => .folder {}

/-- Open sources one after the other with rising priorities. -/
def openSources (disk : Disk) (working : AbsolutePath) : Archive → Nat → List String →
    List Notice × Except Fault Archive
  | a, _, [] => ([], .ok a)
  | a, priority, path :: paths =>
    match a.openSource disk working path priority with
    | (_, notices, false) => (notices, .error (.opening path))
    | (a, notices, true) =>
      let (more, result) := openSources disk working a (priority + 1) paths
      (notices ++ more, result)

/-- Open the sources at some paths as one archive. -/
def openAll (disk : Disk) (working : AbsolutePath) (paths : List String)
    (cacheLimit : Int) : List Notice × Except Fault Archive :=
  match commonProvider disk working.place paths with
  | .error fault => ([], .error fault)
  | .ok provider => openSources disk working (empty provider cacheLimit) 0 paths

end Archive

end ArchiveExport
