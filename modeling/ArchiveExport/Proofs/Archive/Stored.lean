import ArchiveExport.Proofs.Archive.Coherence
import ArchiveExport.Proofs.Archive.Key
import ArchiveExport.Proofs.Deflate.Padding

/-!
# What a stored row reads as

An opened file lists the rows of its table, the open files are those on the disk, and the index
lists the entries of the files. So a key that no later row and no later file takes over reads as
the data stored for its row.
-/

namespace ArchiveExport.Grf

open Archive (Fault Notice)

/-! ### Rows of an opened file -/

/-- The key of a row's name. -/
def Row.key (row : Row) : String := normalize row.nameText

/-- Whether a row's data is encrypted. -/
def Row.isEncrypted (row : Row) : Bool :=
  row.flags.toNat.testBit 1 || row.flags.toNat.testBit 2

/-- The entry that a row stands for. -/
def Row.entry (row : Row) (archivePath : String) (priority : Int) : Entry :=
  ⟨row.key, row.nameText, row.alignedSize, row.realSize, row.offset, row.flags, archivePath,
    priority⟩

theorem Row.accepted?_eq_some {row : Row} {archivePath : String} {priority : Int}
    (hfile : row.isFile = true) (hname : row.name.length ≤ Row.maxName)
    (hsize : row.realSize ≤ Row.maxSize) (hkey : row.key ≠ "") :
    row.accepted? archivePath priority = some (row.entry archivePath priority) := by
  have hproportion : row.isSuspicious = false := by
    simp only [isSuspicious, Bool.or_eq_false_iff, decide_eq_false_iff_not]
    omega
  have haccepted : (row.isFile && !row.isSuspicious && decide (row.key ≠ "")) = true := by
    rw [hfile, hproportion]
    simpa using hkey
  exact if_pos haccepted

theorem Row.key_of_accepted? {row : Row} {archivePath : String} {priority : Int} {e : Entry}
    (h : row.accepted? archivePath priority = some e) : e.key = row.key := by
  rw [accepted?] at h
  split at h
  next =>
    simp only [Option.some.injEq] at h
    rw [← h]
    rfl
  next => simp at h

/-- The last accepted row of a key is its entry. -/
theorem find?_entriesOf {before after : List Row} {row : Row} {archivePath : String}
    {priority : Int} {e : Entry} (h : row.accepted? archivePath priority = some e)
    (hlast : ∀ later ∈ after, later.key = row.key → later.accepted? archivePath priority = none) :
    (entriesOf (before ++ row :: after) archivePath priority).find? row.key = some e := by
  have hsplit : (before ++ row :: after).filterMap (·.accepted? archivePath priority) =
      before.filterMap (·.accepted? archivePath priority) ++
        e :: after.filterMap (·.accepted? archivePath priority) := by
    rw [List.filterMap_append, List.filterMap_cons, h]
  rw [entriesOf, hsplit, List.map_append, List.map_cons, Row.key_of_accepted? h]
  refine OrderedMap.find?_ofList_append_cons ?_
  intro pair hpair hkey
  obtain ⟨later, hlater, rfl⟩ := List.mem_map.mp hpair
  obtain ⟨r, hr, haccepted⟩ := List.mem_filterMap.mp hlater
  have hnone := hlast r hr ((Row.key_of_accepted? haccepted).symm.trans hkey)
  rw [hnone] at haccepted
  simp at haccepted

/-! ### Stored octets of an entry -/

theorem inflateEntry_of_storedSize_eq {e : Entry} (h : e.storedSize = e.realSize)
    (stored : Bytes) : inflateEntry e stored = .ok stored := by
  simp [inflateEntry, Entry.isDeflated, h]

theorem inflateEntry_of_inflateZlib {e : Entry} {stored b : Bytes}
    (h : e.storedSize ≠ e.realSize) (hb : Deflate.inflateZlib stored = .ok b)
    (hlength : b.length = e.realSize) : inflateEntry e stored = .ok b := by
  have hdeflated : e.isDeflated = true := by simpa [Entry.isDeflated] using h
  have hfits : (some b).filter
      (fun data => decide (e.realSize = 0) || decide (data.length = e.realSize)) = some b := by
    rw [Option.filter_some, if_pos (by simp [hlength])]
  simp only [inflateEntry, hdeflated, hb, Except.toOption, hfits, Bool.not_true, Bool.false_eq_true,
    if_false]

/-! ### Files and their rows -/

namespace File

/-- The rows of an opened file's table. -/
def rows? (f : File) : Option (List Row) :=
  f.data.bind fun data =>
    ((f.readHeader data).2.map Prod.snd).bind fun offset =>
      (readTable f.path data offset).toOption.map Prod.fst

/-- A file holds what the disk has at its path, and lists the entries of its rows. -/
structure Loaded (disk : Disk) (working : Path) (f : File) : Prop where
  data : ∃ data, disk.read working f.path = .ok data ∧ f.data = some data
  entries : ∀ rows, f.rows? = some rows → f.entries = entriesOf rows f.path f.priority

/-- Where a header puts the table depends on nothing but the data. -/
theorem offset_readHeader (f g : File) (data : Bytes) :
    (f.readHeader data).2.map Prod.snd = (g.readHeader data).2.map Prod.snd := by
  simp only [readHeader]
  split
  · rfl
  · split <;> rfl

theorem path_of_readHeader {f f' : File} {data : Bytes} {offset : Nat}
    (h : (f.readHeader data).2 = some (f', offset)) :
    f'.path = f.path ∧ f'.priority = f.priority := by
  simp only [readHeader] at h
  split at h
  · simp at h
  · split at h
    · simp at h
    · simp only [Option.some.injEq, Prod.mk.injEq] at h
      rw [← h.1]
      exact ⟨rfl, rfl⟩

theorem rows?_of_load {f : File} {data : Bytes} {f' : File} {notices : List Notice}
    (h : f.load data = (f', notices, true)) :
    f'.path = f.path ∧ f'.priority = f.priority ∧ f'.data = some data ∧
      ∃ rows, f'.rows? = some rows ∧ f'.entries = entriesOf rows f.path f.priority := by
  simp only [load] at h
  cases hheader : f.readHeader data with
  | mk said found =>
      cases found with
      | none => simp [hheader] at h
      | some header =>
          obtain ⟨g, offset⟩ := header
          simp only [hheader] at h
          obtain ⟨hpath, hpriority⟩ := path_of_readHeader (f := f) (by rw [hheader])
          cases htable : readTable g.path data offset with
          | error notice => simp [htable] at h
          | ok table =>
              obtain ⟨rows, cut⟩ := table
              simp only [htable, Prod.mk.injEq, and_true] at h
              obtain ⟨rfl, -⟩ := h
              refine ⟨hpath, hpriority, rfl, rows, ?_, by rw [hpath, hpriority]⟩
              have hoffset := offset_readHeader
                { g with data := some data, entries := entriesOf rows g.path g.priority } f data
              simp only [rows?, Option.bind_some, hoffset, hheader, Option.map_some, htable,
                Except.toOption]

theorem loaded_of_opened? {disk : Disk} {working : Path} {path : String} {priority : Int}
    {f : File} (h : opened? disk working path priority = some f) : f.Loaded disk working := by
  obtain ⟨data, notices, hread, hload⟩ := exists_load_of_opened? h
  obtain ⟨hpath, hpriority, hdata, rows, hrows, hentries⟩ := rows?_of_load hload
  constructor
  · exact ⟨data, by rw [hpath]; exact hread, hdata⟩
  · intro rows' hrows'
    obtain rfl : rows = rows' := Option.some.inj (hrows.symm.trans hrows')
    rw [hentries, hpath, hpriority]

/-- Files that were opened at one path hold the same data. -/
theorem data_eq_of_path_eq {disk : Disk} {working : Path} {f g : File}
    (hf : f.Loaded disk working) (hg : g.Loaded disk working) (hpath : g.path = f.path) :
    g.data = f.data := by
  obtain ⟨data, hread, hdata⟩ := hf.data
  obtain ⟨data', hread', hdata'⟩ := hg.data
  rw [hpath, hread] at hread'
  rw [hdata, hdata', Except.ok.inj hread']

/-- A file has a row for plain data that no later row of it takes over, with the data where the row
says. -/
structure Holds (f : File) (row : Row) (stored : Bytes) : Prop where
  isFile : row.isFile = true
  plain : row.isEncrypted = false
  name : row.name.length ≤ Row.maxName
  key : row.key ≠ ""
  last : ∃ before after, f.rows? = some (before ++ row :: after) ∧
    ∀ later ∈ after, later.key = row.key → later.accepted? f.path f.priority = none
  stored : ∃ data, f.data = some data ∧
    data.slice (headerSize + row.offset) row.alignedSize = stored

theorem find?_entries_of_holds {disk : Disk} {working : Path} {f : File} {row : Row}
    {stored : Bytes} (hf : f.Loaded disk working) (h : f.Holds row stored)
    (hsize : row.realSize ≤ Row.maxSize) :
    f.entries.find? row.key = some (row.entry f.path f.priority) ∧ f.entries.keys.Nodup := by
  obtain ⟨before, after, hrows, hlast⟩ := h.last
  rw [hf.entries _ hrows]
  constructor
  · exact find?_entriesOf (Row.accepted?_eq_some h.isFile h.name hsize h.key) hlast
  · exact OrderedMap.nodup_keys_ofList _

end File

/-! ### Open files and their index -/

namespace Store

/-- The open files are those on the disk, and the index is theirs. -/
structure Linked (disk : Disk) (working : Path) (s : Store) : Prop where
  loaded : ∀ f ∈ s.files, f.Loaded disk working
  index : s.index = indexOf s.files

section Runs

variable {disk : Disk} {working : Path}

theorem linked_addFile {s : Store} {file : File} (hs : s.Linked disk working)
    (hfile : file.Loaded disk working) : (s.addFile file).Linked disk working := by
  constructor
  · intro f hf
    rcases mem_insertFile_iff.mp hf with rfl | hold
    · exact hfile
    · exact hs.loaded f hold
  · rfl

theorem linked_after {s : Store} (hs : s.Linked disk working) (call : Call) :
    (after disk working s call).Linked disk working := by
  cases hcall : call.isAboutFiles with
  | false =>
      obtain ⟨hfiles, hindex⟩ := files_after disk working (s := s) hcall
      constructor
      · rw [hfiles]
        exact hs.loaded
      · rw [hfiles, hindex]
        exact hs.index
  | true =>
      cases call with
      | openFile path priority =>
          simp only [after, open_eq]
          cases hopened : File.opened? disk working path priority with
          | none => exact hs
          | some file => exact linked_addFile hs (File.loaded_of_opened? hopened)
      | close => exact ⟨by simp [after, close], rfl⟩
      | read key => simp [Call.isAboutFiles] at hcall
      | clearCache => simp [Call.isAboutFiles] at hcall

theorem linked_run (limit : Int) (calls : List Call) :
    (run disk working (new limit) calls).Linked disk working := by
  have hnew : (new limit).Linked disk working := ⟨by simp [new], rfl⟩
  exact run_induction (motive := Linked disk working) hnew
    (fun _ call hs => linked_after hs call) calls

/-- The entry of a key in the last file that has the key is the one in the index. -/
theorem find?_indexOf {lower higher : List File} {f : File} {key : String} {e : Entry}
    (hf : f.entries.keys.Nodup) (he : f.entries.find? key = some e)
    (hhigher : ∀ g ∈ higher, key ∉ g.entries.keys) :
    (indexOf (lower ++ f :: higher)).find? key = some e := by
  obtain ⟨first, last, hentries⟩ := List.append_of_mem (OrderedMap.mem_entries_of_find? he)
  have hlast : ∀ pair ∈ last, pair.1 ≠ key := by
    intro pair hpair hkey
    rw [OrderedMap.keys, hentries, List.map_append, List.map_cons] at hf
    have hcons := (List.nodup_append.mp hf).2.1
    exact (List.nodup_cons.mp hcons).1 (List.mem_map.mpr ⟨pair, hpair, hkey⟩)
  have hpairs : (lower ++ f :: higher).flatMap (fun g => g.entries.entries) =
      (lower.flatMap (fun g => g.entries.entries) ++ first) ++
        (key, e) :: (last ++ higher.flatMap fun g => g.entries.entries) := by
    rw [List.flatMap_append, List.flatMap_cons, hentries]
    simp only [List.append_assoc, List.cons_append]
  rw [indexOf, hpairs]
  refine OrderedMap.find?_ofList_append_cons ?_
  intro pair hpair
  rcases List.mem_append.mp hpair with hsame | hover
  · exact hlast pair hsame
  · obtain ⟨g, hg, hmem⟩ := List.mem_flatMap.mp hover
    intro hkey
    exact hhigher g hg (List.mem_map.mpr ⟨pair, hmem, hkey⟩)

/-- Reading a row without the cache inflates what is stored for it. -/
theorem load_of_holds {s : Store} {lower higher : List File} {f : File} {row : Row}
    {stored : Bytes} (hs : s.Linked disk working) (hfiles : s.files = lower ++ f :: higher)
    (hf : f.Holds row stored) (hhigher : ∀ g ∈ higher, row.key ∉ g.entries.keys)
    (hsize : row.realSize ≤ Row.maxSize) (hlength : stored.length = row.alignedSize) :
    s.load row.key = inflateEntry (row.entry f.path f.priority) stored := by
  have hmem : f ∈ s.files := by
    rw [hfiles]
    exact List.mem_append_right _ List.mem_cons_self
  have hloaded := hs.loaded f hmem
  obtain ⟨hfind, hnodup⟩ := File.find?_entries_of_holds hloaded hf hsize
  have hindex : s.index.find? row.key = some (row.entry f.path f.priority) := by
    rw [hs.index, hfiles]
    exact find?_indexOf hnodup hfind hhigher
  obtain ⟨g, hg⟩ : ∃ g, (s.files.find? fun g => g.path = f.path) = some g := by
    have hsome : (s.files.find? fun g => g.path = f.path).isSome = true := by
      rw [List.find?_isSome]
      exact ⟨f, hmem, by simp⟩
    exact Option.isSome_iff_exists.mp hsome
  -- the path may have been opened more than once, and `g` may be another file than `f`
  have hpath : g.path = f.path := by simpa using List.find?_some hg
  have hdata : g.data = f.data :=
    File.data_eq_of_path_eq hloaded (hs.loaded g (List.mem_of_find?_eq_some hg)) hpath
  obtain ⟨data, hfdata, hstored⟩ := hf.stored
  have hread : g.readStored (row.entry f.path f.priority) = .ok stored := by
    simp [File.readStored, hdata, hfdata, Row.entry, hstored, hlength]
  have hplain : (row.entry f.path f.priority).isEncrypted = false := hf.plain
  have harchive : (row.entry f.path f.priority).archivePath = f.path := rfl
  simp only [load, hindex, loadEntry, hplain, harchive, hg, hread, Bool.false_eq_true, if_false]
  rfl

/-- A row that no later row and no later file takes over, and under whose key nothing stale is
cached, reads under every spelling of its key as the data of the zlib stream stored for it, with or
without padding. Only where the stored size is the real size already, the stored octets are returned
as they are. -/
theorem read_zlib_stream {limit : Int} {calls : List Call} {lower higher : List File} {f : File}
    {row : Row} {z padding b : Bytes} {key : String}
    (hfiles : (run disk working (new limit) calls).files = lower ++ f :: higher)
    (hf : f.Holds row (z ++ padding)) (hhigher : ∀ g ∈ higher, row.key ∉ g.entries.keys)
    (hz : Deflate.inflateZlib z = .ok b) (hb : b.length ≤ Row.maxSize)
    (haligned : row.alignedSize = z.length + padding.length) (hreal : row.realSize = b.length)
    (hfresh : (run disk working (new limit) calls).FreshAt row.key)
    (hkey : normalize key = normalize row.key) :
    ((run disk working (new limit) calls).read key).1 =
      .ok (if row.alignedSize = row.realSize then z ++ padding else b) := by
  have hlength : (z ++ padding).length = row.alignedSize := by
    rw [List.length_append, haligned]
  have hload := load_of_holds (linked_run limit calls) hfiles hf hhigher (hreal ▸ hb) hlength
  rw [Row.key, normalize_normalize, ← Row.key] at hkey
  rw [← hkey] at hfresh
  rw [(read_eq_load_iff_freshAt _ key).mpr hfresh, hkey, hload]
  have hinflated : Deflate.inflateZlib (z ++ padding) = .ok b :=
    Deflate.inflateZlib_append padding hz
  by_cases hsame : row.alignedSize = row.realSize
  · rw [if_pos hsame]
    exact inflateEntry_of_storedSize_eq hsame _
  · rw [if_neg hsame]
    exact inflateEntry_of_inflateZlib hsame hinflated hreal.symm

end Runs

/-- A row of stored octets under the name `a`, with its data behind the header. -/
def streamRow (realSize : Nat) (stored : Bytes) : Row :=
  ⟨Bytes.ofString "a", stored.length, realSize, 1, 0⟩

/-- A store that has opened a file with a single row. -/
abbrev streamStore (realSize : Nat) (stored : Bytes) : Store :=
  run (Disk.empty.putFile ["a.grf"] (File.layout [streamRow realSize stored] stored)) [] (new 100)
    [.openFile "/a.grf" 0]

/-- A zlib stream of the letter `a`, 24 times. -/
def stream24 : Bytes := [120, 156, 75, 76, 196, 14, 0, 113, 196, 9, 25]

/-- A zlib stream of the letter `a`, 16 times. -/
def stream16 : Bytes := [120, 156, 75, 76, 68, 5, 0, 51, 152, 6, 17]

theorem read_zlib_stream_padded :
    ((streamStore 24 (stream24 ++ [0, 0, 0, 0, 0])).read "A").1 = .ok (List.replicate 24 97) := by
  have hone : (streamStore 24 (stream24 ++ [0, 0, 0, 0, 0])).files.map
      (fun f => (f.rows?, f.data)) =
        [(some [streamRow 24 (stream24 ++ [0, 0, 0, 0, 0])],
          some (File.layout [streamRow 24 (stream24 ++ [0, 0, 0, 0, 0])]
            (stream24 ++ [0, 0, 0, 0, 0])))] := by
    decide +kernel
  obtain ⟨f, hf, hparts⟩ := List.map_eq_singleton_iff.mp hone
  obtain ⟨hrows, hdata⟩ := Prod.mk.inj hparts
  have hfiles : (streamStore 24 (stream24 ++ [0, 0, 0, 0, 0])).files = [] ++ f :: [] := hf
  have hholds : f.Holds (streamRow 24 (stream24 ++ [0, 0, 0, 0, 0]))
      (stream24 ++ [0, 0, 0, 0, 0]) := by
    refine ⟨by decide, by decide, by decide, by decide, ⟨[], [], hrows, by simp⟩, ?_⟩
    exact ⟨_, hdata, by decide⟩
  have hfresh : (streamStore 24 (stream24 ++ [0, 0, 0, 0, 0])).FreshAt
      (streamRow 24 (stream24 ++ [0, 0, 0, 0, 0])).key := by
    have hcache : (streamStore 24 (stream24 ++ [0, 0, 0, 0, 0])).cache = (new 100).cache := by
      simp only [streamStore, run, List.foldl_cons, List.foldl_nil, cache_openFile]
    intro data h
    simp [hcache, new, OrderedMap.find?] at h
  have hinflates : Deflate.inflateZlib stream24 = .ok (List.replicate 24 97) := by decide +kernel
  exact read_zlib_stream hfiles hholds (by simp) hinflates (by simp [Row.maxSize]) rfl rfl hfresh
    (by decide)

/-- A padded stream of the size of its data is not inflated. -/
theorem read_zlib_stream_of_equal_sizes :
    Deflate.inflateZlib stream16 = .ok (List.replicate 16 97) ∧
      ((streamStore 16 (stream16 ++ [0, 0, 0, 0, 0])).read "a").1 =
        .ok (stream16 ++ [0, 0, 0, 0, 0]) ∧
      stream16 ++ [0, 0, 0, 0, 0] ≠ List.replicate 16 97 := by
  decide +kernel

end Store

end ArchiveExport.Grf
