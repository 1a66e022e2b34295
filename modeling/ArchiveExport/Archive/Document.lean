import ArchiveExport.Archive.Basic
import ArchiveExport.Json.Value
import ArchiveExport.Number.Binary64

/-!
# Documents of archives

What is known about the entries of an archive and about its reads, as trees of plain values.
-/

namespace ArchiveExport

/-- The document of a row of a GRF file. -/
def Grf.Entry.document (e : Grf.Entry) : Json :=
  .object [("path", .text e.key), ("original_path", .text e.originalName),
    ("compressed_size", .nat e.storedSize), ("uncompressed_size", .nat e.realSize),
    ("offset", .nat e.offset), ("flags", .nat e.flags.toNat), ("grf_path", .text e.archivePath),
    ("priority", .integer e.priority), ("encrypted", .bool e.isEncrypted),
    ("compressed", .bool e.isDeflated)]

/-- The document of an entry of any archive. -/
def Archive.EntryInfo.document (e : Archive.EntryInfo) : Json :=
  .object [("key", .text e.key), ("size", .nat e.size), ("compressed_size", .nat e.storedSize),
    ("source", .text e.source)]

/-- The document of the reads from GRF files; the size of the cache is in megabytes. -/
def Grf.Store.document (s : Grf.Store) : Json :=
  .object [("files_read", .nat s.statistics.read), ("cache_hits", .nat s.statistics.hits),
    ("cache_misses", .nat s.statistics.misses),
    ("decompression_failures", .nat s.statistics.inflateFaults),
    ("cache_size_mb", .real (.ofQuotient false s.cache.size Cache.megabyte)),
    ("cache_entries", .nat s.cache.entries.size), ("total_files", .nat s.index.size),
    ("loaded_grfs", .nat s.files.length)]

end ArchiveExport
