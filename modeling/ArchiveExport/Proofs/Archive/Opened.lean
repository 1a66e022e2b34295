import ArchiveExport.Archive.Basic
import ArchiveExport.Proofs.Archive.Coherence
import ArchiveExport.Proofs.Archive.Key
import ArchiveExport.Proofs.Data.OrderedMap

/-!
# Opened archives

An archive that was opened from some sources, whatever has been read from it since, lists its keys
in their normalized spelling. The cache of a store holds what its files hold, and the files behind
the keys of a folder archive were below its folders when it was opened.
-/

namespace ArchiveExport

namespace Grf

/-- All keys of a map are in their normalized spelling. -/
def Spelled (m : OrderedMap String Entry) : Prop :=
  ∀ key ∈ m.keys, normalize key = key

theorem spelled_entriesOf (rows : List Row) (path : String) (priority : Int) :
    Spelled (entriesOf rows path priority) := by
  intro key hkey
  obtain ⟨entry, hentry⟩ := OrderedMap.mem_keys_ofList hkey
  obtain ⟨found, hfound, heq⟩ := List.mem_map.mp hentry
  obtain ⟨row, -, haccepted⟩ := List.mem_filterMap.mp hfound
  rw [Row.accepted?] at haccepted
  split at haccepted
  · rw [← (Prod.mk.inj heq).1, ← Option.some.inj haccepted]
    exact normalize_normalize _
  · simp at haccepted

/-- The entries of a file that can be opened are spelled as they are found. -/
theorem File.spelled_of_opened? {disk : Disk} {working : Path} {path : String} {priority : Int}
    {file : File} (h : opened? disk working path priority = some file) : Spelled file.entries := by
  obtain ⟨data, said, -, hload⟩ := exists_load_of_opened? h
  rw [load] at hload
  rcases hheader : (File.mk path priority 0 0 none {}).readHeader data with
    ⟨notices, _ | ⟨headed, offset⟩⟩
  · simp [hheader] at hload
  · simp only [hheader] at hload
    cases htable : readTable headed.path data offset with
    | error notice => simp [htable] at hload
    | ok table =>
        simp only [htable, Prod.mk.injEq] at hload
        rw [← hload.1]
        exact spelled_entriesOf _ _ _

namespace Store

/-- All files of a store and its index are spelled as their entries are found. -/
structure WellSpelled (s : Store) : Prop where
  files : ∀ file ∈ s.files, Spelled file.entries
  index : Spelled s.index

theorem spelled_indexOf {files : List File} (h : ∀ file ∈ files, Spelled file.entries) :
    Spelled (indexOf files) := by
  intro key hkey
  obtain ⟨entry, hentry⟩ := OrderedMap.mem_keys_ofList hkey
  obtain ⟨file, hfile, hmem⟩ := List.mem_flatMap.mp hentry
  exact h file hfile key (List.mem_map_of_mem (f := Prod.fst) hmem)

theorem wellSpelled_open {s : Store} (hs : s.WellSpelled) (disk : Disk) (working : Path)
    (path : String) (priority : Int) : (s.open disk working path priority).1.WellSpelled := by
  rw [open_eq]
  cases hfile : File.opened? disk working path priority with
  | none => exact hs
  | some file =>
      have hfiles : ∀ other ∈ insertFile file s.files, Spelled other.entries := by
        intro other hother
        rcases mem_insertFile_iff.mp hother with rfl | hold
        · exact File.spelled_of_opened? hfile
        · exact hs.files other hold
      exact ⟨hfiles, spelled_indexOf hfiles⟩

theorem wellSpelled_read {s : Store} (hs : s.WellSpelled) (key : String) :
    (s.read key).2.WellSpelled := by
  obtain ⟨hfiles, hindex⟩ := files_read s key
  constructor
  · rw [hfiles]
    exact hs.files
  · rw [hindex]
    exact hs.index

/-- The names of a store are spelled as they are found, and what is cached is fresh. -/
structure Sound (s : Store) : Prop where
  spelled : s.WellSpelled
  kept : s.WellKept
  fresh : s.Fresh

theorem sound_new (limit : Int) : (new limit).Sound where
  spelled := ⟨fun _ hfile => absurd hfile List.not_mem_nil,
    fun _ hkey => absurd hkey List.not_mem_nil⟩
  kept := wellKept_new limit
  fresh := fresh_new limit

/-- A store that has cached nothing stays sound as files are opened. -/
theorem sound_open {s : Store} {limit : Int} (hs : s.Sound) (hcache : s.cache = (new limit).cache)
    (disk : Disk) (working : Path) (path : String) (priority : Int) :
    (s.open disk working path priority).1.Sound ∧
      (s.open disk working path priority).1.cache = (new limit).cache := by
  have hsame : (s.open disk working path priority).1.cache = s.cache :=
    cache_openFile s path priority
  refine ⟨⟨wellSpelled_open hs.spelled _ _ _ _, wellKept_of_cache_eq hs.kept hsame, ?_⟩,
    hsame.trans hcache⟩
  intro key data hdata
  rw [hsame, hcache] at hdata
  simp [new, OrderedMap.find?] at hdata

theorem sound_read {s : Store} (hs : s.Sound) (key : String) : (s.read key).2.Sound where
  spelled := wellSpelled_read hs.spelled key
  kept := wellKept_read hs.kept key
  fresh := fresh_read hs.kept hs.fresh key

end Store

end Grf

namespace FolderArchive

theorem mem_keys_iff {a : FolderArchive} {key : String} :
    key ∈ a.keys ↔ key ∈ a.files.keys := by
  rw [keys, List.mem_mergeSort]

/-- Where a file of a folder archive was found: below the folder of one of some paths. -/
def FoundBelow (disk : Disk) (working : AbsolutePath) (paths : List String) (key : String)
    (file : LooseFile) : Prop :=
  ∃ path ∈ paths, disk.isFolder working.place path = true ∧
    ∃ found ∈ listed disk (AbsolutePath.ofText working path),
      key = normalize (Text.join "/" found.1) ∧
        file.text =
          Path.join (AbsolutePath.ofText working path).text (Text.join "/" found.1)

/-- What is found after a file was taken in is that file or was there before. -/
theorem find?_add {files : OrderedMap String LooseFile} {key other : String}
    {file found : LooseFile} (h : (add files key file).find? other = some found) :
    (other = key ∧ found = file) ∨ files.find? other = some found := by
  have hinsert : ∀ hin : (files.insert key file).find? other = some found,
      (other = key ∧ found = file) ∨ files.find? other = some found := by
    intro hin
    rw [OrderedMap.find?_insert] at hin
    split at hin
    next hsame => exact Or.inl ⟨hsame, (Option.some.inj hin).symm⟩
    next => exact Or.inr hin
  rw [add] at h
  split at h
  · split at h
    · exact hinsert h
    · exact Or.inr h
  · exact hinsert h

/-- The files with one more that was found below a folder. -/
def takeIn (root : AbsolutePath) (priority : Int) (files : OrderedMap String LooseFile)
    (found : Path × Bytes) : OrderedMap String LooseFile :=
  add files (normalize (Text.join "/" found.1))
    ⟨Path.join root.text (Text.join "/" found.1), priority⟩

/-- Opening a folder takes in the files below it, one after the other. -/
theorem files_open {disk : Disk} {working : AbsolutePath} {path : String}
    (hfolder : disk.isFolder working.place path = true) (a : FolderArchive) (priority : Int) :
    (a.open disk working path priority).1.files =
      (listed disk (AbsolutePath.ofText working path)).foldl
        (takeIn (AbsolutePath.ofText working path) priority) a.files := by
  rw [«open», if_neg (by simp [hfolder])]
  rfl

theorem find?_foldl_takeIn {root : AbsolutePath} {priority : Int} {taken : List (Path × Bytes)}
    {files : OrderedMap String LooseFile} {key : String} {file : LooseFile}
    (h : (taken.foldl (takeIn root priority) files).find? key = some file) :
    (∃ found ∈ taken, key = normalize (Text.join "/" found.1) ∧
        file.text = Path.join root.text (Text.join "/" found.1)) ∨ files.find? key = some file := by
  induction taken generalizing files with
  | nil => exact Or.inr h
  | cons found taken ih =>
      rcases ih h with ⟨other, hother, hkey, htext⟩ | hold
      · exact Or.inl ⟨other, List.mem_cons_of_mem _ hother, hkey, htext⟩
      · rcases find?_add hold with ⟨rfl, rfl⟩ | hbefore
        · exact Or.inl ⟨found, List.mem_cons_self, rfl, rfl⟩
        · exact Or.inr hbefore

theorem find?_open {a : FolderArchive} {disk : Disk} {working : AbsolutePath} {path : String}
    {priority : Int} {key : String} {file : LooseFile}
    (h : (a.open disk working path priority).1.files.find? key = some file) :
    FoundBelow disk working [path] key file ∨ a.files.find? key = some file := by
  by_cases hfolder : disk.isFolder working.place path = true
  · rw [files_open hfolder] at h
    rcases find?_foldl_takeIn h with ⟨found, hfound, hkey, htext⟩ | hold
    · exact Or.inl ⟨path, List.mem_cons_self, hfolder, found, hfound, hkey, htext⟩
    · exact Or.inr hold
  · rw [«open», if_pos (by simpa using hfolder)] at h
    exact Or.inr h

end FolderArchive

namespace Archive

variable {disk : Disk} {working : AbsolutePath} {paths : List String} {limit : Int}
  {a b : Archive}

/-- An archive that was opened from the sources at some paths, and from which some keys may have
been read since, on any disk. -/
inductive Opened (disk : Disk) (working : AbsolutePath) (paths : List String) (limit : Int) :
    Archive → Prop
  | opened {a : Archive} (hopen : (openAll disk working paths limit).2 = .ok a) :
      Opened disk working paths limit a
  | read {a : Archive} (ha : Opened disk working paths limit a) (later : Disk) (key : String) :
      Opened disk working paths limit (a.read later key).2

/-- What holds of the archive without sources and is kept as each source is opened holds of the
archive of all sources. -/
theorem openSources_induction {motive : Archive → Prop} {priority : Nat} (ha : motive a)
    (hopen : ∀ (a : Archive) (path : String) (priority : Int), path ∈ paths → motive a →
      motive (a.openSource disk working path priority).1)
    (h : (openSources disk working a priority paths).2 = .ok b) : motive b := by
  induction paths generalizing a priority with
  | nil => exact Except.ok.inj h ▸ ha
  | cons path paths ih =>
      have hfirst := hopen a path priority List.mem_cons_self ha
      rw [openSources] at h
      split at h
      · simp at h
      next opened notices hsource =>
        rw [hsource] at hfirst
        exact ih hfirst (fun a other priority hother =>
          hopen a other priority (List.mem_cons_of_mem _ hother)) h

theorem openAll_induction {motive : Archive → Prop}
    (hempty : ∀ provider, motive (empty provider limit))
    (hopen : ∀ (a : Archive) (path : String) (priority : Int), path ∈ paths → motive a →
      motive (a.openSource disk working path priority).1)
    (h : (openAll disk working paths limit).2 = .ok a) : motive a := by
  rw [openAll] at h
  split at h
  · simp at h
  · exact openSources_induction (hempty _) hopen h

/-- A store of an archive is sound, and the files of a folder archive were found below the folders
that were opened. -/
def Sound (disk : Disk) (working : AbsolutePath) (paths : List String) : Archive → Prop
  | .grf store => store.Sound
  | .folder files => ∀ key file, files.files.find? key = some file →
      FolderArchive.FoundBelow disk working paths key file

/-- Whether nothing has been read from an archive. -/
def Unread (limit : Int) : Archive → Prop
  | .grf store => store.cache = (Grf.Store.new limit).cache
  | .folder _ => True

theorem sound_openSource {path : String} (hpath : path ∈ paths) (priority : Int)
    (ha : Sound disk working paths a ∧ Unread limit a) :
    Sound disk working paths (a.openSource disk working path priority).1 ∧
      Unread limit (a.openSource disk working path priority).1 := by
  cases a with
  | grf store => exact Grf.Store.sound_open ha.1 ha.2 disk working.place path priority
  | folder files =>
      refine ⟨fun key file hfile => ?_, trivial⟩
      rcases FolderArchive.find?_open hfile with ⟨found, hfound, hbelow⟩ | hold
      · obtain rfl := List.mem_singleton.mp hfound
        exact ⟨found, hpath, hbelow⟩
      · exact ha.1 key file hold

theorem sound_read (ha : Sound disk working paths a) (later : Disk) (key : String) :
    Sound disk working paths (a.read later key).2 := by
  cases a with
  | grf store => exact Grf.Store.sound_read ha key
  | folder files => exact ha

theorem Opened.sound (h : Opened disk working paths limit a) : Sound disk working paths a := by
  induction h with
  | opened hopen =>
      refine (openAll_induction (motive := fun a => Sound disk working paths a ∧ Unread limit a)
        ?_ (fun a path priority hpath ha => sound_openSource hpath priority ha) hopen).1
      rintro (_ | _)
      · exact ⟨Grf.Store.sound_new limit, rfl⟩
      · exact ⟨fun key file hfile => by simp [OrderedMap.find?] at hfile, trivial⟩
  | read _ later key ih => exact sound_read ih later key

/-- An opened archive lists its keys in the spelling in which it finds them. -/
theorem Opened.normalize_key (h : Opened disk working paths limit a) {key : String}
    (hkey : key ∈ a.keys) : a.normalize key = key := by
  have hsound := h.sound
  cases a with
  | grf store => exact hsound.spelled.index key hkey
  | folder files =>
      obtain ⟨file, hfile⟩ :=
        OrderedMap.mem_keys_iff_exists_find?.mp (FolderArchive.mem_keys_iff.mp hkey)
      obtain ⟨-, -, -, found, -, rfl, -⟩ := hsound key file hfile
      exact FolderArchive.normalize_normalize _

/-- Whether a key is asked for, an archive says by its list of keys, unless the file behind the key
is out of reach. -/
theorem contains_eq (a : Archive) (later : Disk) {key : String} (hkey : a.normalize key = key) :
    a.contains later key = .ok (decide (key ∈ a.keys)) ∨
      key ∈ a.keys ∧ ∃ fault, a.contains later key = .error fault := by
  cases a with
  | grf store =>
      left
      have hfound : (store.find? key).isSome = decide (key ∈ store.index.keys) := by
        rw [Grf.Store.find?, show Grf.normalize key = key from hkey, Bool.eq_iff_iff,
          Option.isSome_iff_exists, decide_eq_true_iff, OrderedMap.mem_keys_iff_exists_find?]
      simp only [contains, info?, Except.map, Option.isSome_map, hfound]
      rfl
  | folder files =>
      have hfile : files.file? key = files.files.find? key := by
        rw [FolderArchive.file?, show FolderArchive.normalize key = key from hkey]
      have hmem : key ∈ (folder files).keys ↔ key ∈ files.files.keys :=
        FolderArchive.mem_keys_iff
      simp only [hmem]
      cases hfound : files.files.find? key with
      | none =>
          have hnot := OrderedMap.find?_eq_none_iff.mp hfound
          left
          simp [contains, info?, FolderArchive.size?, hfile, hfound, hnot, Except.map]
      | some file =>
          have hin := OrderedMap.mem_keys_of_find? hfound
          cases hlook : later.look [] file.text with
          | error fault =>
              right
              refine ⟨hin, .gone fault, ?_⟩
              simp [contains, info?, FolderArchive.size?, hfile, hfound, hlook, Except.map]
          | ok node =>
              left
              cases node <;>
                simp [contains, info?, FolderArchive.size?, hfile, hfound, hlook, hin, Except.map]

end Archive

end ArchiveExport
