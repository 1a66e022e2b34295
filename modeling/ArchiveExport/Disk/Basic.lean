import ArchiveExport.Bytes.Basic
import ArchiveExport.Data.OrderedMap
import ArchiveExport.Disk.Path

/-!
# Disks

A disk holds files and folders, each at its place. The top of the disk is always a folder. The
operations here change single places and do not ask whether the folder around a place exists;
`ArchiveExport.Disk.Access` has those that do.
-/

namespace ArchiveExport

/-- What can be at a place. -/
inductive Node where
  | file (data : Bytes)
  | folder
  deriving DecidableEq

/-- Files and folders, each at its place. -/
structure Disk where
  nodes : OrderedMap Path Node := {}

namespace Disk

/-- The disk without files and folders. -/
def empty : Disk := {}

/-- What is at a place. -/
def node? (d : Disk) (place : Path) : Option Node :=
  if place = [] then some .folder else d.nodes.find? place

/-- The data of the file at a place. -/
def file? (d : Disk) (place : Path) : Option Bytes :=
  match d.node? place with
  | some (.file data) => some data
  | _ => none

/-- Whether there is a folder at a place. -/
def hasFolder (d : Disk) (place : Path) : Bool :=
  d.node? place = some .folder

/-- The disk with something at a place. -/
def put (d : Disk) (place : Path) (node : Node) : Disk :=
  ⟨d.nodes.insert place node⟩

/-- The disk without what is at a place. -/
def remove (d : Disk) (place : Path) : Disk :=
  ⟨d.nodes.erase place⟩

/-- The disk with folders at a place and above it, where there is nothing yet. -/
def ensureFolder (d : Disk) (place : Path) : Disk :=
  (List.range (place.length + 1)).foldl
    (fun d depth =>
      let above := place.take depth
      if d.node? above = none then d.put above .folder else d)
    d

/-- The disk with a file and the folders above it. -/
def putFile (d : Disk) (place : Path) (data : Bytes) : Disk :=
  (d.ensureFolder place.dropLast).put place (.file data)

/-- Whether a place comes before another in a walk: in each folder the files come first, then the
folders one after the other, both in the order of their names. -/
def walkBefore : Path → Path → Bool
  | [], _ => true
  | _ :: _, [] => false
  | [a], [b] => a ≤ b
  | [_], _ :: _ :: _ => true
  | _ :: _ :: _, [_] => false
  | a :: c :: p, b :: e :: q => if a = b then walkBefore (c :: p) (e :: q) else a ≤ b

/-- The files below a folder with their places in it, in the order of a walk. -/
def filesBelow (d : Disk) (folder : Path) : List (Path × Bytes) :=
  let below := d.nodes.entries.filterMap fun (place, node) =>
    match node with
    | .file data =>
      if folder.isPrefixOf place ∧ folder.length < place.length then
        some (place.drop folder.length, data)
      else none
    | .folder => none
  below.mergeSort fun a b => walkBefore a.1 b.1

end Disk

end ArchiveExport
