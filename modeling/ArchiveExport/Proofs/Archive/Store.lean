import ArchiveExport.Archive.Grf.Store
import ArchiveExport.Proofs.Archive.Cache

/-!
# Runs of calls on a store

Files are opened and closed, keys are read and the cache is cleared, in any order. What a key reads
as without the cache depends on the open files and their index, and reads leave both alone.
-/

namespace ArchiveExport.Grf

open Archive (Fault Notice)

/-- The file at a path, as it is when it can be opened. -/
def File.opened? (disk : Disk) (working : Path) (path : String) (priority : Int) : Option File :=
  if disk.isFile working path then
    match (File.mk path priority 0 0 none {}).open disk working with
    | (file, _, true) => some file
    | (_, _, false) => none
  else none

/-- A file that can be opened is what its data can be read as. -/
theorem File.exists_load_of_opened? {disk : Disk} {working : Path} {path : String} {priority : Int}
    {file : File} (h : opened? disk working path priority = some file) :
    ∃ data notices, disk.read working path = .ok data ∧
      (File.mk path priority 0 0 none {}).load data = (file, notices, true) := by
  rw [opened?] at h
  split at h
  next =>
    simp only [«open»] at h
    cases hread : disk.read working path with
    | error fault => simp [hread] at h
    | ok data =>
        simp only [hread] at h
        rcases hload : (File.mk path priority 0 0 none {}).load data with ⟨found, notices, worked⟩
        cases worked with
        | false => simp [hload] at h
        | true =>
            simp only [hload, Option.some.injEq] at h
            exact ⟨data, notices, rfl, by rw [← h]; exact hload⟩
  next => simp at h

namespace Store

theorem mem_insertFile_iff {file g : File} {files : List File} :
    g ∈ insertFile file files ↔ g = file ∨ g ∈ files := by
  induction files with
  | nil => simp [insertFile]
  | cons f files ih =>
      rw [insertFile]
      split
      · exact List.mem_cons
      · rw [List.mem_cons, ih, List.mem_cons]
        exact or_left_comm

/-- A store with one more file. -/
def addFile (s : Store) (file : File) : Store :=
  { s with files := insertFile file s.files, index := indexOf (insertFile file s.files) }

/-- Opening adds the file, or changes nothing where the file cannot be opened. -/
theorem open_eq (s : Store) (disk : Disk) (working : Path) (path : String) (priority : Int) :
    (s.open disk working path priority).1 =
      ((File.opened? disk working path priority).map s.addFile).getD s := by
  cases hfile : disk.isFile working path with
  | false => simp [«open», File.opened?, hfile]
  | true =>
      simp only [«open», File.opened?, hfile, Bool.not_true, Bool.false_eq_true, if_false, if_true]
      rcases (File.mk path priority 0 0 none {}).open disk working with ⟨file, notices, worked⟩
      cases worked <;> rfl

/-! ### Single reads -/

/-- What a key reads as without the cache depends on the files and the index only. -/
theorem load_congr {s t : Store} (hfiles : s.files = t.files) (hindex : s.index = t.index)
    (key : String) : s.load key = t.load key := by
  simp only [load, loadEntry, hfiles, hindex]

/-- A read whose key is in the cache takes what is there. -/
theorem read_of_lookup_eq_some {s : Store} {key : String} {data : Bytes} {cache : Cache}
    (h : s.cache.lookup (normalize key) = some (data, cache)) :
    s.read key = (.ok data, { s with cache, statistics.hits := s.statistics.hits + 1 }) := by
  simp only [read, lookup, h]

/-- A read whose key is not in the cache takes what the files hold, and keeps that. -/
theorem read_of_lookup_eq_none {s : Store} {key : String}
    (h : s.cache.lookup (normalize key) = none) :
    s.read key = (s.load (normalize key),
      keep { s with statistics.misses := s.statistics.misses + 1 } (normalize key)
        (s.load (normalize key))) := by
  have hload : Store.load { s with statistics.misses := s.statistics.misses + 1 } =
      s.load := funext fun k => load_congr rfl rfl k
  simp only [read, lookup, h, hload]

theorem read_of_cached {s : Store} {key : String} {data : Bytes}
    (h : s.cache.entries.find? (normalize key) = some data) : (s.read key).1 = .ok data := by
  simp [read, lookup, Cache.lookup, h]

theorem read_of_not_cached {s : Store} {key : String}
    (h : s.cache.entries.find? (normalize key) = none) :
    (s.read key).1 = s.load (normalize key) := by
  rw [read_of_lookup_eq_none (Cache.lookup_eq_none_iff.mpr h)]

theorem files_keep (s : Store) (key : String) (result : Except Fault Bytes) :
    (s.keep key result).files = s.files ∧ (s.keep key result).index = s.index := by
  unfold keep
  split <;> exact ⟨rfl, rfl⟩

/-- A read leaves the files and the index alone. -/
theorem files_read (s : Store) (key : String) :
    (s.read key).2.files = s.files ∧ (s.read key).2.index = s.index := by
  cases h : s.cache.lookup (normalize key) with
  | some found =>
      rw [read_of_lookup_eq_some h]
      exact ⟨rfl, rfl⟩
  | none =>
      rw [read_of_lookup_eq_none h]
      exact files_keep _ _ _

theorem cache_keep_ok (s : Store) (key : String) (data : Bytes) :
    (s.keep key (.ok data)).cache = s.cache.store key data := rfl

theorem cache_keep_error (s : Store) (key : String) (fault : Fault) :
    (s.keep key (.error fault)).cache = s.cache := by
  cases fault <;> rfl

/-- A read moves the data of its key to the end of the cache, or adds what it has read there. -/
theorem cache_read (s : Store) (key : String) :
    (∃ data, s.cache.lookup (normalize key) = some (data, (s.read key).2.cache)) ∨
      (s.read key).2.cache = s.cache ∨
      ∃ data, s.load (normalize key) = .ok data ∧
        (s.read key).2.cache = s.cache.store (normalize key) data := by
  cases h : s.cache.lookup (normalize key) with
  | some found =>
      refine Or.inl ⟨found.1, ?_⟩
      rw [read_of_lookup_eq_some h]
  | none =>
      rw [read_of_lookup_eq_none h]
      cases s.load (normalize key) with
      | ok data => exact Or.inr (Or.inr ⟨data, rfl, rfl⟩)
      | error fault => exact Or.inr (Or.inl (cache_keep_error _ _ fault))

/-! ### Runs -/

/-- A call on a store. -/
inductive Call where
  | openFile (path : String) (priority : Int)
  | read (key : String)
  | clearCache
  | close

/-- Whether a call is about the files of a store and not about what is read from them. -/
def Call.isAboutFiles : Call → Bool
  | .openFile _ _ => true
  | .close => true
  | _ => false

section Runs

variable (disk : Disk) (working : Path)

/-- The store behind a call. -/
def after (s : Store) : Call → Store
  | .openFile path priority => (s.open disk working path priority).1
  | .read key => (s.read key).2
  | .clearCache => s.clearCache
  | .close => s.close

/-- The store behind some calls, one after the other. -/
def run (s : Store) (calls : List Call) : Store :=
  calls.foldl (after disk working) s

variable {disk working}

theorem run_append_singleton (s : Store) (calls : List Call) (call : Call) :
    run disk working s (calls ++ [call]) = after disk working (run disk working s calls) call := by
  simp [run]

/-- What holds at the start and behind each call holds behind every run. -/
theorem run_induction {motive : Store → Prop} {s : Store} (hs : motive s)
    (hstep : ∀ t call, motive t → motive (after disk working t call)) (calls : List Call) :
    motive (run disk working s calls) := by
  induction calls generalizing s with
  | nil => exact hs
  | cons call calls ih => exact ih (hstep s call hs)

variable (disk working)

/-- Calls that are not about files leave the files and the index alone. -/
theorem files_after {s : Store} {call : Call} (h : call.isAboutFiles = false) :
    (after disk working s call).files = s.files ∧ (after disk working s call).index = s.index := by
  cases call with
  | openFile path priority => simp [Call.isAboutFiles] at h
  | read key => exact files_read s key
  | clearCache => exact ⟨rfl, rfl⟩
  | close => simp [Call.isAboutFiles] at h

/-- Calls change the files and the index of two stores alike, whatever the stores have cached. -/
theorem files_after_congr {s t : Store} (hfiles : s.files = t.files) (hindex : s.index = t.index)
    (call : Call) :
    (after disk working s call).files = (after disk working t call).files ∧
      (after disk working s call).index = (after disk working t call).index := by
  cases call with
  | openFile path priority =>
      simp only [after, open_eq]
      cases File.opened? disk working path priority with
      | none => exact ⟨hfiles, hindex⟩
      | some file => simp [addFile, hfiles]
  | read key =>
      simp only [after, files_read, hfiles, hindex, and_self]
  | clearCache => exact ⟨hfiles, hindex⟩
  | close => exact ⟨rfl, rfl⟩

/-- The files and the index of a store are those that the opened and closed files alone leave. -/
theorem files_run_filter {s t : Store} (hfiles : s.files = t.files) (hindex : s.index = t.index)
    (calls : List Call) :
    (run disk working s calls).files =
        (run disk working t (calls.filter Call.isAboutFiles)).files ∧
      (run disk working s calls).index =
        (run disk working t (calls.filter Call.isAboutFiles)).index := by
  induction calls generalizing s t with
  | nil => exact ⟨hfiles, hindex⟩
  | cons call calls ih =>
      cases hcall : call.isAboutFiles with
      | true =>
          obtain ⟨hfiles', hindex'⟩ := files_after_congr disk working hfiles hindex call
          rw [List.filter_cons_of_pos hcall]
          exact ih hfiles' hindex'
      | false =>
          obtain ⟨hfiles', hindex'⟩ := files_after disk working (s := s) hcall
          rw [List.filter_cons_of_neg (by simp [hcall])]
          exact ih (hfiles'.trans hfiles) (hindex'.trans hindex)

end Runs

end Store

end ArchiveExport.Grf
