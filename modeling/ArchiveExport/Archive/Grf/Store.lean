import ArchiveExport.Archive.Grf.Cache
import ArchiveExport.Archive.Grf.File

/-!
# Stores of GRF files

A store has several GRF files open and finds each key in the file of the highest priority that has
it, the latest opened among equals. Inflated data is cached. A read has three parts: a look into
the cache, the reading itself, and keeping its result.
-/

namespace ArchiveExport.Grf

open Archive (Fault Notice)

/-- How often what happened. -/
structure Statistics where
  read : Nat := 0
  hits : Nat := 0
  misses : Nat := 0
  inflateFaults : Nat := 0
  deriving DecidableEq

/-- Open GRF files, the lowest priority first, with their common index and cache. -/
structure Store where
  cache : Cache
  files : List File := []
  index : OrderedMap String Entry := {}
  statistics : Statistics := {}

namespace Store

/-- The store without files whose cache holds so many octets. -/
def new (cacheLimit : Int) : Store :=
  { cache := { limit := cacheLimit } }

/-- A file behind those of lower or equal priority. -/
def insertFile (file : File) : List File → List File
  | [] => [file]
  | f :: files =>
    if file.priority < f.priority then file :: f :: files else f :: insertFile file files

/-- The index of files: each key with its entry in the last file that has it. -/
def indexOf (files : List File) : OrderedMap String Entry :=
  .ofList (files.flatMap fun f => f.entries.entries)

/-- Whether a text names a GRF file by its first octets. -/
def detect (disk : Disk) (working : Path) (path : String) : Bool :=
  match disk.read working path with
  | .ok data => data.take 15 = File.signature
  | .error _ => false

/-- Open a file, and say whether that worked. -/
def «open» (s : Store) (disk : Disk) (working : Path) (path : String) (priority : Int) :
    Store × List Notice × Bool :=
  if !disk.isFile working path then (s, [.noFile path], false)
  else
    match (File.mk path priority 0 0 none {}).open disk working with
    | (_, notices, false) => (s, notices, false)
    | (file, notices, true) =>
      let files := insertFile file s.files
      ({ s with files, index := indexOf files },
        notices ++ [.loaded (Path.base path) priority file.entries.size], true)

/-- Close all files. -/
def close (s : Store) : Store :=
  { s with files := [], index := {}, cache := s.cache.clear }

/-- Forget the cached data. -/
def clearCache (s : Store) : Store :=
  { s with cache := s.cache.clear }

/-- The keys in the order of the index. -/
def keys (s : Store) : List String := s.index.keys

/-- The entry of a key in any spelling. -/
def find? (s : Store) (key : String) : Option Entry :=
  s.index.find? (normalize key)

/-- Read an entry from the file that it belongs to. -/
def loadEntry (s : Store) (e : Entry) : Except Fault Bytes := do
  if e.isEncrypted then throw (.encrypted e.key)
  match s.files.find? fun f => f.path = e.archivePath with
  | none => throw (.notLoaded e.archivePath)
  | some file => inflateEntry e (← file.readStored e)

/-- Read the entry of a normalized key without the cache. -/
def load (s : Store) (key : String) : Except Fault Bytes :=
  match s.index.find? key with
  | none => .error (.noEntry key)
  | some e => s.loadEntry e

/-- Look a normalized key up in the cache, and count the look. -/
def lookup (s : Store) (key : String) : Option Bytes × Store :=
  match s.cache.lookup key with
  | some (data, cache) =>
    (some data, { s with cache, statistics.hits := s.statistics.hits + 1 })
  | none => (none, { s with statistics.misses := s.statistics.misses + 1 })

/-- Keep what a reading gave. -/
def keep (s : Store) (key : String) : Except Fault Bytes → Store
  | .ok data =>
    { s with cache := s.cache.store key data, statistics.read := s.statistics.read + 1 }
  | .error (.inflate _) =>
    { s with statistics.inflateFaults := s.statistics.inflateFaults + 1 }
  | .error _ => s

/-- The data of a key in any spelling. -/
def read (s : Store) (key : String) : Except Fault Bytes × Store :=
  let key := normalize key
  match s.lookup key with
  | (some data, s) => (.ok data, s)
  | (none, s) =>
    let result := s.load key
    (result, s.keep key result)

end Store

end ArchiveExport.Grf
