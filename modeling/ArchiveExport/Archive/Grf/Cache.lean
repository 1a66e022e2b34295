import ArchiveExport.Bytes.Basic
import ArchiveExport.Data.OrderedMap
import ArchiveExport.Number.Binary64

/-!
# Caches of entry data

A cache keeps the data of recently read entries, the least recently read first, as long as their
sizes add up to no more than a limit. Data larger than the limit is not kept.
-/

namespace ArchiveExport

/-- Recently read data by key, the least recently read first. -/
structure Cache where
  limit : Int
  entries : OrderedMap String Bytes := {}
  /-- The size of the data that is kept. -/
  size : Nat := 0

namespace Cache

/-- The number of octets in a megabyte. -/
def megabyte : Nat := 1048576

/-- The number of octets in some megabytes. -/
def octets (megabytes : Int) : Int :=
  megabytes * megabyte

/-- The number of whole octets in a number of megabytes that may have a fraction. Sizes are whole,
so a limit with a fraction and the whole limit below it admit the same data. -/
def wholeOctets (megabytes : Binary64) : Int :=
  ((megabytes.mul (.ofInt megabyte)).floor?).getD 0

/-- The limit where nothing else is said. -/
def standardLimit : Int := octets 64

/-- The cache without data. -/
def clear (c : Cache) : Cache :=
  { c with entries := {}, size := 0 }

/-- The data under a key, which becomes the most recently read. -/
def lookup (c : Cache) (key : String) : Option (Bytes × Cache) :=
  match c.entries.find? key with
  | none => none
  | some data => some (data, { c with entries := (c.entries.erase key).insert key data })

/-- Drop the least recently read data until `size` more octets fit. -/
def makeRoom (size : Nat) (limit : Int) : List (String × Bytes) → Nat →
    List (String × Bytes) × Nat
  | [], current => ([], current)
  | (key, data) :: rest, current =>
    if limit < current + size then makeRoom size limit rest (current - data.length)
    else ((key, data) :: rest, current)

/-- Keep data under a key. -/
def store (c : Cache) (key : String) (data : Bytes) : Cache :=
  if c.limit < data.length then c
  else
    let (kept, size) := makeRoom data.length c.limit c.entries.entries c.size
    { c with entries := (OrderedMap.mk kept).insert key data, size := size + data.length }

end Cache

end ArchiveExport
