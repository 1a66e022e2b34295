import ArchiveExport.Proofs.Archive.Tier
import ArchiveExport.Proofs.Archive.Listing
import ArchiveExport.Proofs.Archive.Stored

/-!
# Which source decides about a key

A store of GRF files builds its index anew from all its files, lowest priority first; a folder
archive takes files in one by one as it finds them. Both put what is opened as one tier over what
was there before, so the same source decides about a key, in whatever order the sources come.
-/

namespace ArchiveExport

/-! ### Stores of GRF files -/

namespace Grf

/-- The accepted rows of a table under their keys. -/
def acceptedPairs (rows : List Row) (path : String) (priority : Int) : List (String × Entry) :=
  (rows.filterMap (·.accepted? path priority)).map fun e => (e.key, e)

/-- What a file that can be opened has, in the order of its table. -/
def File.tier? (disk : Disk) (working : Path) (path : String) (priority : Int) :
    Option (Tier Entry) :=
  (File.opened? disk working path priority).bind fun f =>
    f.rows?.map fun rows => ⟨priority, acceptedPairs rows path priority⟩

theorem of_mem_acceptedPairs {rows : List Row} {path : String} {priority : Int}
    {pair : String × Entry} (h : pair ∈ acceptedPairs rows path priority) :
    pair.2.priority = priority ∧ pair.2.key = pair.1 := by
  obtain ⟨e, he, rfl⟩ := List.mem_map.mp h
  obtain ⟨row, -, haccepted⟩ := List.mem_filterMap.mp he
  rw [Row.accepted?] at haccepted
  split at haccepted
  · rw [← Option.some.inj haccepted]
    exact ⟨rfl, rfl⟩
  · cases haccepted

/-- A file opens exactly where it is a tier, and then it lists the pairs of the tier. -/
theorem File.tier?_eq (disk : Disk) (working : Path) (path : String) (priority : Int) :
    (∃ f tier, opened? disk working path priority = some f ∧
        tier? disk working path priority = some tier ∧ tier.priority = priority ∧
        f.priority = priority ∧ f.entries = .ofList tier.pairs ∧
        ∀ pair ∈ tier.pairs, pair.2.priority = priority ∧ pair.2.key = pair.1) ∨
      opened? disk working path priority = none ∧ tier? disk working path priority = none := by
  cases hopened : opened? disk working path priority with
  | none => exact Or.inr ⟨rfl, by rw [tier?, hopened, Option.bind_none]⟩
  | some f =>
      obtain ⟨data, notices, -, hload⟩ := exists_load_of_opened? hopened
      obtain ⟨-, hpriority, -, rows, hrows, hentries⟩ := rows?_of_load hload
      refine Or.inl ⟨f, ⟨priority, acceptedPairs rows path priority⟩, rfl, ?_, rfl, hpriority,
        hentries, fun pair hpair => of_mem_acceptedPairs hpair⟩
      rw [tier?, hopened, Option.bind_some, hrows, Option.map_some]

namespace Store

variable {s : Store} {file : File} {files : List File} {key : String}

/-- The files stand in the order of their priorities, which their entries have, and the index is
made of them. -/
structure Ordered (s : Store) : Prop where
  sorted : s.files.Pairwise fun f g => f.priority ≤ g.priority
  entries : ∀ f ∈ s.files, ∀ pair ∈ f.entries.entries,
    pair.2.priority = f.priority ∧ pair.2.key = pair.1
  index : s.index = indexOf s.files

theorem insertFile_split (h : files.Pairwise fun f g => f.priority ≤ g.priority) (file : File) :
    ∃ lower higher, files = lower ++ higher ∧
      insertFile file files = lower ++ file :: higher ∧
      (∀ f ∈ lower, f.priority ≤ file.priority) ∧ ∀ f ∈ higher, file.priority < f.priority := by
  induction files with
  | nil => exact ⟨[], [], rfl, rfl, by simp, by simp⟩
  | cons first files ih =>
      obtain ⟨hfirst, hfiles⟩ := List.pairwise_cons.mp h
      rw [insertFile]
      split
      next hless =>
        refine ⟨[], first :: files, rfl, rfl, by simp, fun f hf => ?_⟩
        rcases List.mem_cons.mp hf with rfl | hmore
        · exact hless
        · exact Int.lt_of_lt_of_le hless (hfirst f hmore)
      next hnot =>
        obtain ⟨lower, higher, rfl, hinsert, hlower, hhigher⟩ := ih hfiles
        refine ⟨first :: lower, higher, rfl, by rw [hinsert]; rfl, fun f hf => ?_, hhigher⟩
        rcases List.mem_cons.mp hf with rfl | hmore
        · exact Int.not_lt.mp hnot
        · exact hlower f hmore

theorem find?_indexOf_append (lower higher : List File) (key : String) :
    (indexOf (lower ++ higher)).find? key =
      ((indexOf higher).find? key).or ((indexOf lower).find? key) := by
  have hall : indexOf (lower ++ higher) =
      (indexOf lower).insertAll (higher.flatMap fun f => f.entries.entries) := by
    rw [indexOf, indexOf, OrderedMap.ofList, OrderedMap.ofList, OrderedMap.insertAll,
      OrderedMap.insertAll, OrderedMap.insertAll, List.flatMap_append, List.foldl_append]
  rw [hall, OrderedMap.find?_insertAll, indexOf.eq_1 higher, OrderedMap.find?_ofList]

theorem exists_file_of_find?_indexOf {e : Entry} (h : (indexOf files).find? key = some e) :
    ∃ f ∈ files, (key, e) ∈ f.entries.entries :=
  List.mem_flatMap.mp (OrderedMap.mem_of_find?_ofList h)

theorem find?_indexOf_singleton {tier : Tier Entry} (h : file.entries = .ofList tier.pairs)
    (key : String) : (indexOf [file]).find? key = tier.last? key := by
  have hnodup : file.entries.keys.Nodup := by
    rw [h]
    exact OrderedMap.nodup_keys_ofList _
  rw [indexOf, List.flatMap_singleton, OrderedMap.find?_ofList_entries hnodup, h,
    OrderedMap.find?_ofList, Tier.last?]

theorem ordered_new (limit : Int) : (new limit).Ordered where
  sorted := List.Pairwise.nil
  entries := by simp [new]
  index := rfl

theorem ordered_addFile (hs : s.Ordered)
    (hlabel : ∀ pair ∈ file.entries.entries,
      pair.2.priority = file.priority ∧ pair.2.key = pair.1) : (s.addFile file).Ordered where
  sorted := by
    obtain ⟨lower, higher, hfiles, hinsert, hlower, hhigher⟩ := insertFile_split hs.sorted file
    have hsorted := hs.sorted
    rw [hfiles] at hsorted
    obtain ⟨hlow, hhigh, hacross⟩ := List.pairwise_append.mp hsorted
    rw [addFile, hinsert]
    refine List.pairwise_append.mpr ⟨hlow, List.pairwise_cons.mpr ⟨?_, hhigh⟩, ?_⟩
    · exact fun f hf => Int.le_of_lt (hhigher f hf)
    · intro f hf g hg
      rcases List.mem_cons.mp hg with rfl | hmore
      · exact hlower f hf
      · exact hacross f hf g hmore
  entries := by
    intro f hf pair hpair
    rcases mem_insertFile_iff.mp hf with rfl | hold
    · exact hlabel pair hpair
    · exact hs.entries f hold pair hpair
  index := rfl

/-- The index has entries with the priorities of their files. -/
theorem Ordered.exists_priority (hs : s.Ordered) (hpart : ∀ f ∈ files, f ∈ s.files) {e : Entry}
    (he : (indexOf files).find? key = some e) : ∃ f ∈ files, e.priority = f.priority := by
  obtain ⟨f, hf, hmem⟩ := exists_file_of_find?_indexOf he
  exact ⟨f, hf, (hs.entries f (hpart f hf) _ hmem).1⟩

/-- A file that is added puts its tier over what was there before. -/
theorem find?_index_addFile (hs : s.Ordered) {tier : Tier Entry}
    (hpriority : file.priority = tier.priority) (hentries : file.entries = .ofList tier.pairs)
    (key : String) :
    (s.addFile file).index.find? key = tier.overlay Entry.priority key (s.index.find? key) := by
  obtain ⟨lower, higher, hfiles, hinsert, hlower, hhigher⟩ := insertFile_split hs.sorted file
  have hafter : (s.addFile file).index.find? key =
      (((indexOf higher).find? key).or (tier.last? key)).or ((indexOf lower).find? key) := by
    rw [addFile, hinsert, ← List.singleton_append, find?_indexOf_append, find?_indexOf_append,
      find?_indexOf_singleton hentries]
  have hbefore : s.index.find? key =
      ((indexOf higher).find? key).or ((indexOf lower).find? key) := by
    rw [hs.index, hfiles, find?_indexOf_append]
  rw [hafter, hbefore, Tier.overlay]
  cases hlast : tier.last? key with
  | none => rw [Option.or_none]
  | some value =>
      -- a file of higher priority keeps its entry, and any other one loses it
      cases habove : (indexOf higher).find? key with
      | some e =>
          obtain ⟨f, hf, he⟩ := hs.exists_priority
            (fun f hf => by rw [hfiles]; exact List.mem_append_right _ hf) habove
          have hless := hhigher f hf
          rw [hpriority, ← he, ← Int.not_le] at hless
          simp [hless]
      | none =>
          cases hunder : (indexOf lower).find? key with
          | none => simp
          | some e =>
              obtain ⟨f, hf, he⟩ := hs.exists_priority
                (fun f hf => by rw [hfiles]; exact List.mem_append_left _ hf) hunder
              have hle := hlower f hf
              rw [hpriority, ← he] at hle
              simp [hle]

/-- A file is opened where it has a tier; else the store stays as it is. -/
theorem open_worked (s : Store) (disk : Disk) (working : Path) (path : String) (priority : Int) :
    (s.open disk working path priority).2.2 =
        (File.tier? disk working path priority).isSome ∧
      (File.tier? disk working path priority = none →
        (s.open disk working path priority).1 = s) := by
  have hworked : (s.open disk working path priority).2.2 =
      (File.opened? disk working path priority).isSome := by
    cases hfile : disk.isFile working path with
    | false => simp [«open», File.opened?, hfile]
    | true =>
        simp only [«open», File.opened?, hfile, Bool.not_true, Bool.false_eq_true, if_false,
          if_true]
        rcases (File.mk path priority 0 0 none {}).open disk working with ⟨file, notices, worked⟩
        cases worked <;> rfl
  rw [hworked, open_eq]
  rcases File.tier?_eq disk working path priority with ⟨f, tier, hf, hl, -⟩ | ⟨hf, hl⟩
  · simp [hf, hl]
  · simp [hf, hl]

/-- A file that is opened puts its tier over what was there before. -/
theorem ordered_open (hs : s.Ordered) (disk : Disk) (working : Path) (path : String)
    (priority : Int) :
    (s.open disk working path priority).1.Ordered ∧
      ∀ tier, File.tier? disk working path priority = some tier → ∀ key,
        (s.open disk working path priority).1.index.find? key =
          tier.overlay Entry.priority key (s.index.find? key) := by
  rw [open_eq]
  rcases File.tier?_eq disk working path priority with
    ⟨f, tier, hf, hl, hpriority, hfile, hentries, hlabel⟩ | ⟨hf, hl⟩
  · have hlabels : ∀ pair ∈ f.entries.entries,
        pair.2.priority = f.priority ∧ pair.2.key = pair.1 := by
      intro pair hpair
      rw [hentries] at hpair
      rw [hfile]
      exact hlabel pair (OrderedMap.mem_of_mem_entries_ofList hpair)
    rw [hf, Option.map_some, Option.getD_some]
    refine ⟨ordered_addFile hs hlabels, fun found hfound key => ?_⟩
    rw [hl, Option.some.injEq] at hfound
    rw [← hfound]
    exact find?_index_addFile hs (hfile.trans hpriority.symm) hentries key
  · rw [hf, Option.map_none, Option.getD_none]
    refine ⟨hs, fun found hfound => ?_⟩
    rw [hl] at hfound
    cases hfound

end Store

end Grf

/-! ### Folder archives -/

namespace FolderArchive

variable {files : OrderedMap String LooseFile} {key other : String} {file : LooseFile}

/-- What a folder has, in the order of a walk. -/
def tier? (disk : Disk) (working : AbsolutePath) (path : String) (priority : Int) :
    Option (Tier LooseFile) :=
  if disk.isFolder working.place path then
    let root := AbsolutePath.ofText working path
    some ⟨priority, (listed disk root).map fun found =>
      (normalize (Text.join "/" found.1), ⟨Path.join root.text (Text.join "/" found.1), priority⟩)⟩
  else none

theorem find?_add_eq (files : OrderedMap String LooseFile) (key : String) (file : LooseFile)
    (other : String) :
    (add files key file).find? other =
      if key = other then
        if (files.find? key).all (·.priority ≤ file.priority) then some file else files.find? key
      else files.find? other := by
  rw [add]
  cases hcurrent : files.find? key with
  | none =>
      rw [OrderedMap.find?_insert]
      by_cases hkey : key = other
      · simp [hkey]
      · simp [hkey, Ne.symm hkey]
  | some current =>
      by_cases hle : current.priority ≤ file.priority
      · simp only [hle, if_true, OrderedMap.find?_insert]
        by_cases hkey : key = other
        · simp [hkey, hle]
        · simp [hkey, Ne.symm hkey]
      · simp only [hle, if_false]
        by_cases hkey : key = other
        · simp [← hkey, hcurrent, hle]
        · simp [hkey]

/-- Files of one priority that are added one by one come over what was there before as one tier. -/
theorem find?_foldl_add {priority : Int} {pairs : List (String × LooseFile)}
    (hlabel : ∀ pair ∈ pairs, pair.2.priority = priority)
    (files : OrderedMap String LooseFile) (key : String) :
    (pairs.foldl (fun files pair => add files pair.1 pair.2) files).find? key =
      (Tier.mk priority pairs).overlay LooseFile.priority key (files.find? key) := by
  -- from the end of the list, since the file that is added last has the last word
  induction pairs using List.reverseRecOn with
  | nil => rfl
  | append_singleton pairs pair ih =>
      have hlabels : ∀ pair ∈ pairs, pair.2.priority = priority :=
        fun pair hpair => hlabel pair (List.mem_append_left _ hpair)
      have hpair : pair.2.priority = priority :=
        hlabel pair (List.mem_append_right _ List.mem_cons_self)
      rw [List.foldl_append, List.foldl_cons, List.foldl_nil, find?_add_eq]
      by_cases hkey : pair.1 = key
      · rw [hkey, if_pos rfl, ih hlabels, hpair, Tier.overlay, Tier.overlay, Tier.last?_concat,
          if_pos hkey]
        cases hlast : (Tier.mk priority pairs).last? key with
        | none => rfl
        | some value =>
            have hvalue : value.priority = priority :=
              hlabels _ (Tier.mem_pairs_of_last? hlast)
            by_cases hall : (files.find? key).all (·.priority ≤ priority) = true
            · simp [hall, hvalue]
            · simp [hall]
      · rw [if_neg hkey, ih hlabels, Tier.overlay, Tier.overlay, Tier.last?_concat, if_neg hkey]

/-- A folder is opened where it has a tier; else the archive stays as it is. -/
theorem open_worked (a : FolderArchive) (disk : Disk) (working : AbsolutePath) (path : String)
    (priority : Int) :
    (a.open disk working path priority).2.2 = (tier? disk working path priority).isSome ∧
      (tier? disk working path priority = none →
        (a.open disk working path priority).1 = a) := by
  by_cases hfolder : disk.isFolder working.place path = true
  · simp [«open», tier?, hfolder]
  · simp [«open», tier?, hfolder]

/-- A folder that is opened puts its tier over what was there before. -/
theorem find?_files_open {disk : Disk} {working : AbsolutePath} {path : String} {priority : Int}
    {tier : Tier LooseFile} (htier : tier? disk working path priority = some tier)
    (a : FolderArchive) (key : String) :
    (a.open disk working path priority).1.files.find? key =
      tier.overlay LooseFile.priority key (a.files.find? key) := by
  rw [tier?] at htier
  split at htier
  next hfolder =>
    obtain rfl := Option.some.inj htier
    have hlabel : ∀ pair ∈ (listed disk (AbsolutePath.ofText working path)).map
        (fun found => (normalize (Text.join "/" found.1), LooseFile.mk (Path.join
          (AbsolutePath.ofText working path).text (Text.join "/" found.1)) priority)),
        pair.2.priority = priority := by
      intro pair hpair
      obtain ⟨found, -, rfl⟩ := List.mem_map.mp hpair
      rfl
    rw [files_open hfolder, ← find?_foldl_add hlabel, List.foldl_map]
    rfl
  next => cases htier

theorem nodup_keys_add (h : files.keys.Nodup) (key : String) (file : LooseFile) :
    (add files key file).keys.Nodup := by
  rw [add]
  split
  · split
    · exact OrderedMap.nodup_keys_insert h key file
    · exact h
  · exact OrderedMap.nodup_keys_insert h key file

theorem nodup_keys_open {a : FolderArchive} (h : a.files.keys.Nodup) (disk : Disk)
    (working : AbsolutePath) (path : String) (priority : Int) :
    (a.open disk working path priority).1.files.keys.Nodup := by
  by_cases hfolder : disk.isFolder working.place path = true
  · rw [files_open hfolder]
    refine List.foldlRecOn (motive := fun found : OrderedMap String LooseFile => found.keys.Nodup)
      _ _ h ?_
    exact fun files hfiles found _ => nodup_keys_add hfiles _ _
  · rw [«open», if_pos (by simpa using hfolder)]
    exact h

/-- The keys are listed in the order of their characters, each once. -/
theorem sorted_keys (a : FolderArchive) : a.keys.Pairwise (· ≤ ·) := by
  have htrans : ∀ x y z : String, decide (x ≤ y) = true → decide (y ≤ z) = true →
      decide (x ≤ z) = true := by
    intro x y z hxy hyz
    exact decide_eq_true (String.le_trans (of_decide_eq_true hxy) (of_decide_eq_true hyz))
  have htotal : ∀ x y : String, (decide (x ≤ y) || decide (y ≤ x)) = true := by
    intro x y
    rw [Bool.or_eq_true, decide_eq_true_iff, decide_eq_true_iff]
    exact String.le_total x y
  exact (List.pairwise_mergeSort htrans htotal a.files.keys).imp of_decide_eq_true

end FolderArchive

/-! ### Archives -/

namespace Archive

/-- What the index of an archive has under a key. -/
inductive Item where
  | row (e : Grf.Entry)
  | file (f : LooseFile)

namespace Item

/-- The priority of the source that an item is from. -/
def priority : Item → Int
  | .row e => e.priority
  | .file f => f.priority

/-- The path of the GRF file that an item is in, or of the loose file that it is. -/
def source : Item → String
  | .row e => e.archivePath
  | .file f => f.text

/-- The item can be looked at: the path of a loose file is not too long to be used. -/
def InReach : Item → Prop
  | .row _ => True
  | .file f => f.text.utf8ByteSize ≤ Disk.maxText

theorem inReach_of_source {item : Item} (h : item.source.utf8ByteSize ≤ Disk.maxText) :
    item.InReach := by
  cases item with
  | row e => exact trivial
  | file f => exact h

end Item

/-- The item under a normalized key. -/
def indexed? : Archive → String → Option Item
  | .grf store, key => (store.index.find? key).map .row
  | .folder files, key => (files.files.find? key).map .file

/-- A call that opens a source, on the disk as it is then. -/
structure Opening where
  disk : Disk
  working : AbsolutePath
  path : String
  priority : Int

namespace Opening

/-- The archive and whether the call worked. -/
def perform (o : Opening) (a : Archive) : Archive × Bool :=
  let (a, _, worked) := a.openSource o.disk o.working o.path o.priority
  (a, worked)

/-- What the source has for an archive of a kind, if it can be opened. -/
def tier? (o : Opening) : Provider → Option (Tier Item)
  | .grf => (Grf.File.tier? o.disk o.working.place o.path o.priority).map (.map .row)
  | .folder => (FolderArchive.tier? o.disk o.working o.path o.priority).map (.map .file)

/-- The files that were found below a folder are still there, in their folders and with their
data. -/
structure Kept (o : Opening) (later : Disk) : Prop where
  normal : o.working.Normal
  tree : o.disk.IsTree
  holds : ∀ found ∈ FolderArchive.listed o.disk (AbsolutePath.ofText o.working o.path),
    later.Holds ((AbsolutePath.ofText o.working o.path).below found.1) found.2

/-- On the disk as it was all files are still there. -/
theorem kept_of_isTree {o : Opening} (hworking : o.working.Normal) (htree : o.disk.IsTree) :
    o.Kept o.disk := by
  refine ⟨hworking, htree, fun found hfound => ?_⟩
  obtain ⟨-, hfile, -⟩ := (FolderArchive.mem_listed_iff htree.nodup).mp hfound
  exact htree.holds hfile

/-- A file that was found can be read by its path, unless that is too long. -/
theorem Kept.read_eq {o : Opening} {later : Disk} (h : o.Kept later) {found : Path × Bytes}
    (hfound : found ∈ FolderArchive.listed o.disk (AbsolutePath.ofText o.working o.path))
    {text : String} (htext : text = Path.join (AbsolutePath.ofText o.working o.path).text
      (Text.join "/" found.1)) (hfits : text.utf8ByteSize ≤ Disk.maxText) :
    later.read [] text = .ok found.2 := by
  obtain ⟨hne, hfile, -⟩ := (FolderArchive.mem_listed_iff h.tree.nodup).mp hfound
  have hroot := AbsolutePath.normal_ofText h.normal o.path
  have hnames := h.tree.isNodeName_of_node? (Disk.node?_eq_file_iff.mp hfile)
  have hbelow : ∀ name ∈ found.1, Path.IsName name := fun name hname =>
    (hnames name (List.mem_append_right _ hname)).isName
  obtain rfl := htext.trans (AbsolutePath.join_text hroot hbelow hne)
  exact (h.holds found hfound).read_text (AbsolutePath.normal_below hroot hbelow)
    (by simp [AbsolutePath.below, hne]) hnames hfits []

end Opening

/-- The archive behind some calls, one after the other, whether they work or not. -/
def openEach (a : Archive) (openings : List Opening) : Archive :=
  openings.foldl (fun a o => (o.perform a).1) a

/-- What every call that opens a source keeps of an archive. -/
def Ordered : Archive → Prop
  | .grf store => store.Ordered ∧ store.WellSpelled
  | .folder files => files.files.keys.Nodup ∧
      ∀ key ∈ files.files.keys, FolderArchive.normalize key = key

variable {a : Archive} {o : Opening} {tier : Tier Item} {key : String} {item : Item}

theorem ordered_empty (provider : Provider) (limit : Int) : (empty provider limit).Ordered := by
  cases provider with
  | grf => exact ⟨Grf.Store.ordered_new limit, (Grf.Store.sound_new limit).spelled⟩
  | folder => exact ⟨List.nodup_nil, fun key hkey => absurd hkey List.not_mem_nil⟩

theorem provider_perform (a : Archive) (o : Opening) :
    (o.perform a).1.provider = a.provider := by
  cases a with
  | grf store => rfl
  | folder files => rfl

theorem perform_grf (o : Opening) (store : Grf.Store) :
    o.perform (.grf store) =
      (.grf (store.open o.disk o.working.place o.path o.priority).1,
        (store.open o.disk o.working.place o.path o.priority).2.2) := by
  rw [Opening.perform, openSource]

theorem perform_folder (o : Opening) (files : FolderArchive) :
    o.perform (.folder files) =
      (.folder (files.open o.disk o.working o.path o.priority).1,
        (files.open o.disk o.working o.path o.priority).2.2) := by
  rw [Opening.perform, openSource]

/-- A call works where the source has a tier; else it leaves the archive as it is. -/
theorem perform_worked (a : Archive) (o : Opening) :
    (o.perform a).2 = (o.tier? a.provider).isSome ∧
      (o.tier? a.provider = none → (o.perform a).1 = a) := by
  cases a with
  | grf store =>
      obtain ⟨hworked, hsame⟩ := store.open_worked o.disk o.working.place o.path o.priority
      rw [perform_grf, provider, Opening.tier?, Option.isSome_map, Option.map_eq_none_iff]
      exact ⟨hworked, fun hnone => by rw [hsame hnone]⟩
  | folder files =>
      obtain ⟨hworked, hsame⟩ := files.open_worked o.disk o.working o.path o.priority
      rw [perform_folder, provider, Opening.tier?, Option.isSome_map, Option.map_eq_none_iff]
      exact ⟨hworked, fun hnone => by rw [hsame hnone]⟩

/-- A call that works puts the tier of its source over what was there before. -/
theorem ordered_perform (ha : a.Ordered) (o : Opening) :
    (o.perform a).1.Ordered ∧ ∀ tier, o.tier? a.provider = some tier → ∀ key,
      (o.perform a).1.indexed? key = tier.overlay Item.priority key (a.indexed? key) := by
  cases a with
  | grf store =>
      obtain ⟨hordered, hoverlay⟩ :=
        Grf.Store.ordered_open ha.1 o.disk o.working.place o.path o.priority
      rw [perform_grf]
      refine ⟨⟨hordered, Grf.Store.wellSpelled_open ha.2 _ _ _ _⟩, fun tier htier key => ?_⟩
      obtain ⟨rows, hrows, rfl⟩ := Option.map_eq_some_iff.mp htier
      rw [indexed?, indexed?, hoverlay rows hrows key, Tier.overlay_map]
      rfl
  | folder files =>
      rw [perform_folder]
      refine ⟨⟨FolderArchive.nodup_keys_open ha.1 _ _ _ _, fun key hkey => ?_⟩,
        fun tier htier key => ?_⟩
      · by_cases hfolder : o.disk.isFolder o.working.place o.path = true
        · have hcase := (FolderArchive.mem_keys_open hfolder o.priority).mp hkey
          rcases hcase with ⟨found, -, rfl⟩ | hold
          · exact FolderArchive.normalize_normalize _
          · exact ha.2 key hold
        · have hnone : FolderArchive.tier? o.disk o.working o.path o.priority = none :=
            if_neg hfolder
          rw [(files.open_worked _ _ _ _).2 hnone] at hkey
          exact ha.2 key hkey
      · obtain ⟨found, hfound, rfl⟩ := Option.map_eq_some_iff.mp htier
        rw [indexed?, indexed?, FolderArchive.find?_files_open hfound, Tier.overlay_map]
        rfl

theorem priority_of_tier? {provider : Provider} (h : o.tier? provider = some tier)
    {pair : String × Item} (hpair : pair ∈ tier.pairs) : pair.2.priority = tier.priority := by
  cases provider with
  | grf =>
      obtain ⟨rows, hrows, rfl⟩ := Option.map_eq_some_iff.mp h
      obtain ⟨row, hrow, rfl⟩ := List.mem_map.mp hpair
      rcases Grf.File.tier?_eq o.disk o.working.place o.path o.priority with
        ⟨f, found, -, hfound, hpriority, -, -, hlabel⟩ | ⟨-, hnone⟩
      · obtain rfl := Option.some.inj (hrows.symm.trans hfound)
        exact (hlabel row hrow).1.trans hpriority.symm
      · rw [hrows] at hnone
        cases hnone
  | folder =>
      obtain ⟨files, hfiles, rfl⟩ := Option.map_eq_some_iff.mp h
      obtain ⟨file, hfile, rfl⟩ := List.mem_map.mp hpair
      rw [FolderArchive.tier?] at hfiles
      split at hfiles
      · obtain rfl := Option.some.inj hfiles
        obtain ⟨found, -, rfl⟩ := List.mem_map.mp hfile
        rfl
      · cases hfiles

/-- A loose file that was found can be looked at, unless its path is too long. -/
theorem look_of_tier? {later : Disk} {provider : Provider} {file : LooseFile}
    (h : o.tier? provider = some tier) (hpair : (key, Item.file file) ∈ tier.pairs)
    (hkept : provider = .folder → o.Kept later) (hreach : (Item.file file).InReach) :
    ∃ node, later.look [] file.text = .ok node := by
  cases provider with
  | grf =>
      obtain ⟨rows, -, rfl⟩ := Option.map_eq_some_iff.mp h
      obtain ⟨row, -, hrow⟩ := List.mem_map.mp hpair
      cases hrow
  | folder =>
      obtain ⟨files, hfiles, rfl⟩ := Option.map_eq_some_iff.mp h
      obtain ⟨pair, hfile, hsame⟩ := List.mem_map.mp hpair
      rw [FolderArchive.tier?] at hfiles
      split at hfiles
      · obtain rfl := Option.some.inj hfiles
        obtain ⟨found, hfound, rfl⟩ := List.mem_map.mp hfile
        obtain rfl := Item.file.inj (Prod.mk.inj hsame).2
        exact Disk.look_of_read ((hkept rfl).read_eq hfound rfl hreach)
      · cases hfiles

theorem mem_keys_iff_indexed? : key ∈ a.keys ↔ ∃ item, a.indexed? key = some item := by
  cases a with
  | grf store =>
      have hmem : key ∈ (grf store).keys ↔ ∃ e, store.index.find? key = some e :=
        OrderedMap.mem_keys_iff_exists_find?
      rw [hmem]
      simp [indexed?]
  | folder files =>
      have hmem : key ∈ (folder files).keys ↔ ∃ f, files.files.find? key = some f :=
        FolderArchive.mem_keys_iff.trans OrderedMap.mem_keys_iff_exists_find?
      rw [hmem]
      simp [indexed?]

theorem sorted_keys (h : a.provider = .folder) : a.keys.Pairwise (· ≤ ·) := by
  cases a with
  | grf store => cases h
  | folder files => exact files.sorted_keys

theorem Ordered.nodup_keys (ha : a.Ordered) : a.keys.Nodup := by
  cases a with
  | grf store =>
      change store.index.keys.Nodup
      rw [ha.1.index]
      exact OrderedMap.nodup_keys_ofList _
  | folder files => exact (List.mergeSort_perm _ _).nodup_iff.mpr ha.1

theorem Ordered.normalize_key (ha : a.Ordered) (hkey : key ∈ a.keys) : a.normalize key = key := by
  cases a with
  | grf store => exact ha.2.index key hkey
  | folder files => exact ha.2 key (FolderArchive.mem_keys_iff.mp hkey)

/-- Under every spelling of its key an item is found, where its loose file can be looked at. -/
theorem Ordered.info?_eq (ha : a.Ordered) (hitem : a.indexed? key = some item) {later : Disk}
    {spelling : String} (hspelling : a.normalize spelling = key)
    (hfile : ∀ file, item = .file file → ∃ node, later.look [] file.text = .ok node) :
    ∃ info, a.info? later spelling = .ok (some info) ∧ info.key = key ∧
      info.source = item.source := by
  cases a with
  | grf store =>
      obtain ⟨e, he, rfl⟩ := Option.map_eq_some_iff.mp hitem
      have hfound : store.find? spelling = some e := by
        rw [Grf.Store.find?, show Grf.normalize spelling = key from hspelling, he]
      have hkey : e.key = key := by
        rw [ha.1.index] at he
        obtain ⟨f, hf, hmem⟩ := Grf.Store.exists_file_of_find?_indexOf he
        exact (ha.1.entries f hf _ hmem).2
      rw [info?, hfound, Option.map_some]
      exact ⟨_, rfl, hkey, rfl⟩
  | folder files =>
      obtain ⟨file, hfound, rfl⟩ := Option.map_eq_some_iff.mp hitem
      have hkey : FolderArchive.normalize spelling = key := hspelling
      have hfile' : files.file? spelling = some file := by
        rw [FolderArchive.file?, hkey, hfound]
      obtain ⟨node, hnode⟩ := hfile file rfl
      cases node with
      | file data =>
          refine ⟨⟨key, data.length, data.length, file.text⟩, ?_, rfl, rfl⟩
          simp [info?, FolderArchive.size?, hfile', hnode, hkey]
      | folder =>
          refine ⟨⟨key, 0, 0, file.text⟩, ?_, rfl, rfl⟩
          simp [info?, FolderArchive.size?, hfile', hnode, hkey]

/-- Under no spelling of its key an item is found whose path is too long. -/
theorem info?_of_not_inReach (hitem : a.indexed? key = some item) (hlong : ¬ item.InReach)
    {later : Disk} {spelling : String} (hspelling : a.normalize spelling = key) :
    ∃ fault, a.info? later spelling = .error fault ∧ a.contains later spelling = .error fault := by
  cases a with
  | grf store =>
      obtain ⟨e, -, rfl⟩ := Option.map_eq_some_iff.mp hitem
      exact absurd trivial hlong
  | folder files =>
      obtain ⟨file, hfound, rfl⟩ := Option.map_eq_some_iff.mp hitem
      have hkey : FolderArchive.normalize spelling = key := hspelling
      have hfile : files.file? spelling = some file := by
        rw [FolderArchive.file?, hkey, hfound]
      obtain ⟨fault, hlook⟩ := Disk.look_of_long (d := later) hlong []
      have hinfo : (folder files).info? later spelling = .error (.gone fault) := by
        simp [info?, FolderArchive.size?, hfile, hlook]
      exact ⟨.gone fault, hinfo, by rw [contains, hinfo]; rfl⟩

/-- A file is listed where its folder can be listed, and is still not found if its own path is too
long. -/
theorem PlainFolder.fails_of_not_fits {d : Disk} {working : AbsolutePath} {path : String}
    {names : Path} (h : PlainFolder d working path) (hne : names ≠ [])
    (hfile : (d.file? ((AbsolutePath.ofText working path).place ++ names)).isSome)
    (hfolder : ((AbsolutePath.ofText working path).below names.dropLast).Fits)
    (hlong : ¬ ((AbsolutePath.ofText working path).below names).Fits) (later : Disk) :
    let a := Archive.folder (FolderArchive.open {} d working path 0).1
    Text.join "/" names ∈ a.keys ∧
      ∃ fault, a.info? later (Text.join "/" names) = .error fault ∧
        a.contains later (Text.join "/" names) = .error fault := by
  have hkey := h.mem_keys_iff.mpr ⟨names, hne, rfl, hfile, hfolder⟩
  have hnormal := (h.plain_join hne hfile).2.2
  obtain ⟨item, hitem⟩ := mem_keys_iff_indexed?.mp hkey
  obtain ⟨file, hfound, rfl⟩ := Option.map_eq_some_iff.mp hitem
  have htext := (h.text_of_file? hne hfile
    (by rw [FolderArchive.file?, hnormal, hfound])).2
  refine ⟨hkey, info?_of_not_inReach hitem (fun hreach => hlong ?_) hnormal⟩
  rw [AbsolutePath.Fits, ← htext]
  exact hreach

/-- What is found behind some calls is what their tiers leave, one over the other. -/
theorem indexed?_openEach (provider : Provider) (limit : Int) (openings : List Opening) :
    (openEach (empty provider limit) openings).provider = provider ∧
      (openEach (empty provider limit) openings).Ordered ∧
      ∀ key, (openEach (empty provider limit) openings).indexed? key =
        (openings.filterMap (·.tier? provider)).foldl (Tier.overlay Item.priority key) none := by
  induction openings using List.reverseRecOn with
  | nil =>
      refine ⟨by cases provider <;> rfl, ordered_empty provider limit, fun key => ?_⟩
      cases provider <;> rfl
  | append_singleton openings o ih =>
      obtain ⟨hprovider, hordered, hindexed⟩ := ih
      have hafter : openEach (empty provider limit) (openings ++ [o]) =
          (o.perform (openEach (empty provider limit) openings)).1 := by
        rw [openEach, List.foldl_append, List.foldl_cons, List.foldl_nil, openEach]
      obtain ⟨hkept, hoverlay⟩ := ordered_perform hordered o
      obtain ⟨-, hsame⟩ := perform_worked (openEach (empty provider limit) openings) o
      rw [hprovider] at hoverlay hsame
      rw [hafter]
      refine ⟨(provider_perform _ o).trans hprovider, hkept, fun key => ?_⟩
      rw [List.filterMap_append, List.foldl_append]
      cases htier : o.tier? provider with
      | none => simp [htier, hsame htier, hindexed]
      | some tier => simp [htier, hoverlay tier htier, hindexed]

/-- Let sources be opened one after the other in any order and with any priorities, and let some of
the calls fail. Under each key the index has the last occurrence in the source that decides: none
that was opened later has the key with the same priority or a higher one, and none that was opened
earlier with a higher one. The keys are listed once each, those of folders in order. Each of them is
normalized, and as long as the loose files that were found are still there, its entry is found under
every spelling that is normalized to it; but where the path of a loose file is too long to be used,
asking for the entry fails. A call works where the source can be read, and changes nothing where it
fails. -/
theorem openEach_overrides (provider : Provider) (limit : Int) (openings : List Opening) :
    let a := openEach (empty provider limit) openings
    (∀ key item, a.indexed? key = some item ↔
      ∃ tier, Tier.Decides (openings.filterMap (·.tier? provider)) key tier ∧
        tier.last? key = some item) ∧
    a.keys.Nodup ∧ (provider = .folder → a.keys.Pairwise (· ≤ ·)) ∧
    (∀ key, key ∈ a.keys ↔ ∃ item, a.indexed? key = some item) ∧
    (∀ key ∈ a.keys, a.normalize key = key ∧
      ∀ later, (provider = .folder → ∀ o ∈ openings, o.Kept later) →
        ∀ spelling, a.normalize spelling = key → ∃ item, a.indexed? key = some item ∧
          (item.InReach → a.contains later spelling = .ok true ∧
            ∃ info, a.info? later spelling = .ok (some info) ∧ info.key = key ∧
              info.source = item.source) ∧
          (¬ item.InReach → ∃ fault, a.info? later spelling = .error fault ∧
            a.contains later spelling = .error fault)) ∧
    ∀ o : Opening, (o.perform a).2 = (o.tier? provider).isSome ∧
      ((o.perform a).2 = false → (o.perform a).1 = a) := by
  intro a
  obtain ⟨hprovider, hordered, hindexed⟩ := indexed?_openEach provider limit openings
  have hlaw : ∀ key item, a.indexed? key = some item ↔
      ∃ tier, Tier.Decides (openings.filterMap (·.tier? provider)) key tier ∧
        tier.last? key = some item := by
    intro key item
    rw [hindexed key]
    refine Tier.foldl_overlay_eq_some_iff fun tier htier pair hpair => ?_
    obtain ⟨o, -, ho⟩ := List.mem_filterMap.mp htier
    exact priority_of_tier? ho hpair
  refine ⟨hlaw, hordered.nodup_keys, fun hfolder => sorted_keys (hprovider.trans hfolder),
    fun key => mem_keys_iff_indexed?, ?_, ?_⟩
  · intro key hkey
    refine ⟨hordered.normalize_key hkey, fun later hkept spelling hspelling => ?_⟩
    obtain ⟨item, hitem⟩ := mem_keys_iff_indexed?.mp hkey
    refine ⟨item, hitem, fun hreach => ?_, fun hlong => info?_of_not_inReach hitem hlong hspelling⟩
    have hlook : ∀ file, item = .file file → ∃ node, later.look [] file.text = .ok node := by
      rintro file rfl
      obtain ⟨tier, hdecides, hlast⟩ := (hlaw key _).mp hitem
      obtain ⟨o, ho, htier⟩ := List.mem_filterMap.mp hdecides.mem
      exact look_of_tier? htier (Tier.mem_pairs_of_last? hlast) (fun hfolder => hkept hfolder o ho)
        hreach
    obtain ⟨info, hinfo, hinfokey, hsource⟩ := hordered.info?_eq hitem hspelling hlook
    have hcontains : a.contains later spelling = .ok true := by
      rw [contains, show a.info? later spelling = .ok (some info) from hinfo]
      rfl
    exact ⟨hcontains, info, hinfo, hinfokey, hsource⟩
  · intro o
    obtain ⟨hworked, hsame⟩ := perform_worked a o
    rw [show a.provider = provider from hprovider] at hworked hsame
    refine ⟨hworked, fun hfailed => hsame ?_⟩
    rw [hworked] at hfailed
    simpa using hfailed

/-- Three folders with one key, in two spellings. -/
def sharedDisk : Disk :=
  ((Disk.empty.putFile ["first", "x", "y"] [49]).putFile ["second", "x\\y"] [50]).putFile
    ["third", "x", "y"] [51]

/-- Two of the folders have the same priority and the last has a lower one. Another folder is not
there. -/
def sharedKey : List Opening :=
  [("first", 1), ("missing", 7), ("second", 1), ("third", 0)].map fun source =>
    ⟨sharedDisk, ⟨"/", []⟩, source.1, source.2⟩

theorem openEach_overrides_of_sharedKey :
    let a := openEach (empty .folder 0) sharedKey
    a.keys = ["x/y"] ∧ (∀ o ∈ sharedKey, o.Kept sharedDisk) ∧
      a.contains sharedDisk "\\x\\y" = .ok true ∧
      ∃ info, a.info? sharedDisk "\\x\\y" = .ok (some info) ∧ info.key = "x/y" ∧
        info.source = "/second/x\\y" := by
  intro a
  have hkeys : a.keys = ["x/y"] := by decide +kernel
  have hkey : "x/y" ∈ a.keys := by rw [hkeys]; exact List.mem_cons_self
  have hkept : ∀ o ∈ sharedKey, o.Kept sharedDisk := by
    intro o ho
    obtain ⟨⟨path, priority⟩, hpath, rfl⟩ := List.mem_map.mp ho
    exact Opening.kept_of_isTree (show (AbsolutePath.mk "/" []).Normal by decide)
      (show sharedDisk.IsTree by decide)
  obtain ⟨-, -, -, -, hfound, -⟩ := openEach_overrides .folder 0 sharedKey
  obtain ⟨item, hitem, hreach, -⟩ :=
    (hfound "x/y" hkey).2 sharedDisk (fun _ => hkept) "\\x\\y" (by decide)
  have hsecond : (a.indexed? "x/y").map Item.source = some "/second/x\\y" := by decide +kernel
  rw [hitem, Option.map_some, Option.some.injEq] at hsecond
  obtain ⟨hcontains, info, hinfo, hinfokey, hsource⟩ :=
    hreach (Item.inReach_of_source (hsecond ▸ by decide))
  exact ⟨hkeys, hkept, hcontains, info, hinfo, hinfokey, hsource.trans hsecond⟩

theorem openEach_folder (limit : Int) (o : Opening) :
    openEach (empty .folder limit) [o] =
      .folder (FolderArchive.open {} o.disk o.working o.path o.priority).1 := rfl

/-- The call that opens the folder without room for the longest name, which has a file of that
name. -/
def openNarrow : Opening := ⟨Disk.longNamed Disk.narrow.place, Disk.narrow, ".", 0⟩

/-- The key of the file is listed, but is not found on the disk as it was. -/
theorem contains_fails_of_narrow :
    let a := openEach (empty .folder 0) [openNarrow]
    openNarrow.Kept openNarrow.disk ∧ Disk.letters 255 ∈ a.keys ∧
      ∃ fault, a.info? openNarrow.disk (Disk.letters 255) = .error fault ∧
        a.contains openNarrow.disk (Disk.letters 255) = .error fault := by
  rw [openEach_folder]
  have hplain : PlainFolder openNarrow.disk Disk.narrow "." :=
    plainFolder_longNamed Disk.normal_narrow Disk.isNodeName_narrow
  have hjoin : Text.join "/" [Disk.letters 255] = Disk.letters 255 := by
    rw [Text.join, String.intercalate_singleton]
  have hdot := AbsolutePath.ofText_dot Disk.narrow
  have hfails := hplain.fails_of_not_fits (show [Disk.letters 255] ≠ [] by simp)
    (by rw [hdot]; exact Option.isSome_of_eq_some (Disk.file?_putFile _ _ _ _))
    (by rw [hdot, List.dropLast_singleton, AbsolutePath.below, List.append_nil];
        exact Disk.fits_narrow)
    (by rw [hdot]; exact Disk.not_fits_narrow) openNarrow.disk
  rw [hjoin] at hfails
  exact ⟨Opening.kept_of_isTree Disk.normal_narrow hplain.tree, hfails⟩

end Archive

end ArchiveExport
