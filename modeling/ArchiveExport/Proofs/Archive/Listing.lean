import ArchiveExport.Proofs.Archive.Presence

/-!
# What an opened folder lists

A folder that is opened on its own lists every file below it, under the names that lead there. Where
these names are spelled as keys are, each key reads as its file.
-/

namespace ArchiveExport

variable {d : Disk} {working : AbsolutePath} {path : String} {limit : Int} {names : Path}

namespace FolderArchive

variable {a : FolderArchive} {key other : String} {file : LooseFile}

theorem mem_keys_add {files : OrderedMap String LooseFile} :
    other ∈ (add files key file).keys ↔ other = key ∨ other ∈ files.keys := by
  rw [add]
  split
  next current hcurrent =>
    split
    · exact OrderedMap.mem_keys_insert_iff
    · have hkey := OrderedMap.mem_keys_of_find? hcurrent
      constructor
      · exact Or.inr
      · rintro (rfl | hold)
        · exact hkey
        · exact hold
  next => exact OrderedMap.mem_keys_insert_iff

theorem mem_keys_foldl_takeIn {root : AbsolutePath} {priority : Int}
    {taken : List (Path × Bytes)} {files : OrderedMap String LooseFile} :
    key ∈ (taken.foldl (takeIn root priority) files).keys ↔
      (∃ found ∈ taken, key = normalize (Text.join "/" found.1)) ∨ key ∈ files.keys := by
  induction taken generalizing files with
  | nil => simp
  | cons found taken ih =>
      rw [List.foldl_cons, ih, takeIn, mem_keys_add, ← or_assoc]
      simp only [List.mem_cons, exists_eq_or_imp, or_comm]

theorem mem_keys_open (hfolder : d.isFolder working.place path = true) (priority : Int) :
    key ∈ (a.open d working path priority).1.files.keys ↔
      (∃ found ∈ listed d (AbsolutePath.ofText working path),
        key = normalize (Text.join "/" found.1)) ∨ key ∈ a.files.keys := by
  rw [files_open hfolder, mem_keys_foldl_takeIn]

end FolderArchive

namespace Archive

/-- A path names a folder on a disk that is a tree, and no file below it has a backslash in its
names. So the keys of the files are spelled like the names that lead to them. -/
structure PlainFolder (d : Disk) (working : AbsolutePath) (path : String) : Prop where
  normal : working.Normal
  tree : d.IsTree
  folder : d.isFolder working.place path = true
  noBackslash : ∀ names, (d.file? ((AbsolutePath.ofText working path).place ++ names)).isSome →
    ∀ name ∈ names, '\\' ∉ name.toList

theorem normalize_join (hnames : ∀ name ∈ names, Path.IsName name) (hne : names ≠ [])
    (hbackslash : ∀ name ∈ names, '\\' ∉ name.toList) :
    '\\' ∉ (Text.join "/" names).toList ∧
      FolderArchive.normalize (Text.join "/" names) = Text.join "/" names := by
  have hnone : '\\' ∉ (Text.join "/" names).toList := by
    rw [Text.mem_toList_iff (show '\\' ≠ '/' by decide), AbsolutePath.split_join_names hnames hne]
    rintro ⟨name, hname, hmem⟩
    exact hbackslash name hname hmem
  exact ⟨hnone, FolderArchive.normalize_eq_self hnone (AbsolutePath.head?_join_ne hnames hne)⟩

namespace PlainFolder

/-- The names of a file below the folder make a plain path, which is normalized. -/
theorem plain_join (h : PlainFolder d working path) (hne : names ≠ [])
    (hfile : (d.file? ((AbsolutePath.ofText working path).place ++ names)).isSome) :
    Path.Plain (Text.join "/" names) ∧ Text.split '/' (Text.join "/" names) = names ∧
      FolderArchive.normalize (Text.join "/" names) = Text.join "/" names := by
  obtain ⟨data, hdata⟩ := Option.isSome_iff_exists.mp hfile
  have hnames : ∀ name ∈ names, Path.IsName name := fun name hname =>
    (h.tree.isNodeName_of_node? (Disk.node?_eq_file_iff.mp hdata) name
      (List.mem_append_right _ hname)).isName
  have hsplit := AbsolutePath.split_join_names hnames hne
  obtain ⟨hbackslash, hnormal⟩ := normalize_join hnames hne (h.noBackslash names hfile)
  exact ⟨⟨hbackslash, hsplit.symm ▸ hnames⟩, hsplit, hnormal⟩

/-- The archive of one folder has the files below it, as far as their folders can be listed. -/
theorem mem_keys_iff (h : PlainFolder d working path) {key : String} :
    key ∈ (Archive.folder (FolderArchive.open {} d working path 0).1).keys ↔
      ∃ names, names ≠ [] ∧ key = Text.join "/" names ∧
        (d.file? ((AbsolutePath.ofText working path).place ++ names)).isSome ∧
          ((AbsolutePath.ofText working path).below names.dropLast).Fits := by
  have hempty : key ∉ ({} : FolderArchive).files.keys := List.not_mem_nil
  rw [show (Archive.folder (FolderArchive.open {} d working path 0).1).keys =
      (FolderArchive.open {} d working path 0).1.keys from rfl,
    FolderArchive.mem_keys_iff, FolderArchive.mem_keys_open h.folder, or_iff_left hempty]
  constructor
  · rintro ⟨⟨names, data⟩, hfound, rfl⟩
    obtain ⟨hne, hfile, hfits⟩ := (FolderArchive.mem_listed_iff h.tree.nodup).mp hfound
    have hsome := Option.isSome_of_eq_some hfile
    exact ⟨names, hne, (h.plain_join hne hsome).2.2, hsome, hfits⟩
  · rintro ⟨names, hne, rfl, hsome, hfits⟩
    obtain ⟨data, hfile⟩ := Option.isSome_iff_exists.mp hsome
    exact ⟨(names, data), (FolderArchive.mem_listed_iff h.tree.nodup).mpr ⟨hne, hfile, hfits⟩,
      (h.plain_join hne hsome).2.2.symm⟩

/-- The file of a key stands at the text of its path. -/
theorem text_of_file? {file : LooseFile} (h : PlainFolder d working path) (hne : names ≠ [])
    (hfile : (d.file? ((AbsolutePath.ofText working path).place ++ names)).isSome)
    (hfound : (FolderArchive.open {} d working path 0).1.file? (Text.join "/" names) = some file) :
    ((AbsolutePath.ofText working path).below names).Normal ∧
      file.text = ((AbsolutePath.ofText working path).below names).text := by
  obtain ⟨-, hsplit, hnormal⟩ := h.plain_join hne hfile
  rw [FolderArchive.file?, hnormal] at hfound
  have hbelow := (FolderArchive.find?_open hfound).resolve_right (by simp [OrderedMap.find?])
  obtain ⟨other, hother, found, data, hne', hsame, htext, hp, hholds⟩ :=
    hbelow.exists_holds h.normal h.tree
  obtain rfl := List.mem_singleton.mp hother
  -- no other file has the key
  obtain ⟨-, hsplit', hnormal'⟩ := h.plain_join hne' (Option.isSome_of_eq_some hholds.file)
  obtain rfl : names = found := by
    rw [← hsplit, ← hsplit', hsame, hnormal']
  exact ⟨hp, htext⟩

end PlainFolder

/-- The one file below a folder has the longest name there can be. -/
theorem plainFolder_longNamed (hworking : working.Normal)
    (hnames : ∀ name ∈ working.place, Disk.IsNodeName name) :
    PlainFolder (Disk.longNamed working.place) working "." := by
  have htree : (Disk.longNamed working.place).IsTree :=
    Disk.isTree_putFile_empty (Disk.isNodeName_concat_letters hnames) [49]
  have hfile : (Disk.longNamed working.place).file? (working.place ++ [Disk.letters 255]) =
      some [49] := Disk.file?_putFile _ _ _ _
  have hfolder := htree.folder_above (by simp [Disk.node?_eq_file_iff.mp hfile])
    (List.prefix_append working.place [Disk.letters 255]) (by simp)
  refine ⟨hworking, htree, Disk.isFolder_dot hfolder, ?_⟩
  intro names hfound name hname hbackslash
  rw [AbsolutePath.ofText_dot] at hfound
  obtain ⟨data, hdata⟩ := Option.isSome_iff_exists.mp hfound
  have hthere : (Disk.longNamed working.place).node? (working.place ++ names) ≠ none := by
    simp [Disk.node?_eq_file_iff.mp hdata]
  have hmem := ((List.prefix_append_right_inj _).mp
    (Disk.prefix_of_node?_putFile_empty hthere)).subset hname
  rw [List.mem_singleton.mp hmem] at hbackslash
  exact absurd (Disk.eq_of_mem_letters hbackslash) (by decide)

end Archive

end ArchiveExport
