import ArchiveExport.Proofs.Disk.Folders

/-!
# Disks that are trees

On a disk that is a tree every file and every folder stands in a folder. Its files below a folder
are known by the names that lead to them from there, and they are found under the folder's text with
these names behind it.
-/

namespace ArchiveExport

/-- Neither of two places is at or below the other one. -/
def Path.Apart (place other : Path) : Prop := ¬ place <+: other ∧ ¬ other <+: place

instance (place other : Path) : Decidable (place.Apart other) :=
  inferInstanceAs (Decidable (_ ∧ _))

theorem Path.Apart.symm {place other : Path} (h : place.Apart other) : other.Apart place :=
  ⟨h.2, h.1⟩

namespace AbsolutePath

variable {root : AbsolutePath} {names : Path}

theorem normal_below (hroot : root.Normal) (hnames : ∀ name ∈ names, Path.IsName name) :
    (root.below names).Normal where
  lead := hroot.lead
  isName := by
    intro name hname
    rcases List.mem_append.mp hname with habove | hbelow
    · exact hroot.isName name habove
    · exact hnames name hbelow

theorem split_join_names (hnames : ∀ name ∈ names, Path.IsName name) (hne : names ≠ []) :
    Text.split '/' (Text.join "/" names) = names :=
  Text.split_join rfl hne fun name hname => (hnames name hname).noSlash

theorem head?_join_ne (hnames : ∀ name ∈ names, Path.IsName name) (hne : names ≠ []) :
    (Text.join "/" names).toList.head? ≠ some '/' := by
  obtain ⟨name, rest, rfl⟩ := List.exists_cons_of_ne_nil hne
  have hname := hnames name List.mem_cons_self
  obtain ⟨c, chars, hc⟩ := List.exists_cons_of_ne_nil
    (show name.toList ≠ [] by simpa using hname.ne_empty)
  have hslash : c ≠ '/' := by
    rintro rfl
    exact hname.noSlash (by simp [hc])
  cases rest with
  | nil => simpa [Text.join, hc] using hslash
  | cons other rest => simpa [Text.join, String.intercalate_cons_cons, hc] using hslash

theorem isAbsolute_join (hnames : ∀ name ∈ names, Path.IsName name) (hne : names ≠ []) :
    Path.isAbsolute (Text.join "/" names) = false := by
  have hhead := head?_join_ne hnames hne
  rw [Path.isAbsolute, Text.startsWith]
  cases hchars : (Text.join "/" names).toList with
  | nil => rfl
  | cons c chars =>
      rw [hchars] at hhead
      simpa [List.isPrefixOf] using fun hslash : '/' = c => hhead (by simp [← hslash])

/-- Names behind the text of a folder make the text of the path below it. -/
theorem join_text (hroot : root.Normal) (hnames : ∀ name ∈ names, Path.IsName name)
    (hne : names ≠ []) : Path.join root.text (Text.join "/" names) = (root.below names).text := by
  obtain ⟨lead, place⟩ := root
  rw [Path.join, if_neg (by simp [isAbsolute_join hnames hne])]
  rcases List.eq_nil_or_concat' place with rfl | ⟨front, last, rfl⟩
  · have hends : Text.endsWith "/" (AbsolutePath.mk lead []).text = true := by
      rw [text_nil]
      rcases hroot.lead with rfl | rfl <;> decide
    rw [if_pos (Or.inr hends), text_nil]
    rfl
  · have hends := (withoutSlashes_text hroot).2
    have htext := text_ne_empty hroot
    rw [if_neg (by simp [htext, hends]), below, text, text, Text.join, Text.join, Text.join,
      String.intercalate_append_of_ne_nil (by simp) hne]
    simp only [String.append_assoc]

theorem ofText_dot (working : AbsolutePath) : ofText working "." = working := by
  have habsolute : Path.isAbsolute "." = false := by decide
  have hpieces : Text.split '/' "." = ["."] := by decide
  rw [ofText, habsolute, hpieces]
  rfl

/-- A path above one that is not too long is not too long either. -/
theorem Fits.of_prefix {p : AbsolutePath} {above : Path} (h : p.Fits) (habove : above <+: p.place) :
    (AbsolutePath.mk p.lead above).Fits :=
  (size_text_le habove).trans h

theorem Fits.dropLast (h : (root.below names).Fits) : (root.below names.dropLast).Fits :=
  h.of_prefix ((List.prefix_append_right_inj root.place).mpr (List.dropLast_prefix names))

end AbsolutePath

namespace Disk

variable {d : Disk} {place above folder names : Path} {data : Bytes}

/-- A name that something on a disk can have. -/
structure IsNodeName (name : String) : Prop where
  isName : Path.IsName name
  noNul : Char.ofNat 0 ∉ name.toList
  size_le : name.utf8ByteSize ≤ maxName

instance (name : String) : Decidable (IsNodeName name) :=
  decidable_of_iff
    (Path.IsName name ∧ Char.ofNat 0 ∉ name.toList ∧ name.utf8ByteSize ≤ maxName)
    ⟨fun ⟨hname, hnul, hsize⟩ => ⟨hname, hnul, hsize⟩, fun h => ⟨h.isName, h.noNul, h.size_le⟩⟩

/-- Every place is listed once, under names that there can be, and in a folder. -/
structure IsTree (d : Disk) : Prop where
  nodup : d.nodes.keys.Nodup
  isNodeName : ∀ place ∈ d.nodes.keys, ∀ name ∈ place, IsNodeName name
  inFolder : ∀ place ∈ d.nodes.keys, d.node? place.dropLast = some .folder

instance (d : Disk) : Decidable d.IsTree :=
  decidable_of_iff (d.nodes.keys.Nodup ∧ (∀ place ∈ d.nodes.keys, ∀ name ∈ place, IsNodeName name) ∧
      ∀ place ∈ d.nodes.keys, d.node? place.dropLast = some .folder)
    ⟨fun ⟨hnodup, hname, hfolder⟩ => ⟨hnodup, hname, hfolder⟩,
      fun h => ⟨h.nodup, h.isNodeName, h.inFolder⟩⟩

theorem mem_keys_of_node? {node : Node} (hne : place ≠ []) (h : d.node? place = some node) :
    place ∈ d.nodes.keys := by
  rw [node?, if_neg hne] at h
  exact OrderedMap.mem_keys_of_find? h

/-- Above every place where something is there are folders. -/
theorem IsTree.folder_above (h : d.IsTree) (hthere : d.node? place ≠ none)
    (habove : above <+: place) (hshort : above ≠ place) : d.node? above = some .folder := by
  induction place using List.reverseRecOn with
  | nil => exact absurd (List.prefix_nil.mp habove) hshort
  | append_singleton front name ih =>
      obtain ⟨node, hnode⟩ := Option.ne_none_iff_exists'.mp hthere
      have hfront := h.inFolder _ (mem_keys_of_node? (by simp) hnode)
      rw [List.dropLast_concat] at hfront
      have hup := (List.prefix_concat_iff.mp habove).resolve_left hshort
      by_cases hall : above = front
      · rw [hall, hfront]
      · exact ih (by simp [hfront]) hup hall

theorem IsTree.isNodeName_of_node? {node : Node} (h : d.IsTree)
    (hnode : d.node? place = some node) : ∀ name ∈ place, IsNodeName name := by
  by_cases hne : place = []
  · simp [hne]
  · exact h.isNodeName place (mem_keys_of_node? hne hnode)

/-- The files below a folder, by the names that lead to them. -/
theorem mem_filesBelow_iff (h : d.nodes.keys.Nodup) :
    (names, data) ∈ d.filesBelow folder ↔ names ≠ [] ∧ d.file? (folder ++ names) = some data := by
  rw [filesBelow, List.mem_mergeSort, List.mem_filterMap, node?_eq_file_iff]
  constructor
  · rintro ⟨⟨place, node⟩, hmem, hfound⟩
    cases node with
    | folder => simp at hfound
    | file found =>
        simp only at hfound
        split at hfound
        next hbelow =>
          obtain ⟨rest, rfl⟩ := List.isPrefixOf_iff_prefix.mp hbelow.1
          simp only [Option.some.injEq, Prod.mk.injEq, List.drop_left] at hfound
          obtain ⟨rfl, rfl⟩ := hfound
          have hne : rest ≠ [] := by
            rintro rfl
            simp at hbelow
          exact ⟨hne, by
            rw [node?, if_neg (by simp [hne])]
            exact OrderedMap.find?_of_mem_entries h hmem⟩
        next => simp at hfound
  · rintro ⟨hne, hnode⟩
    rw [node?, if_neg (by simp [hne])] at hnode
    have hlength : 0 < names.length := List.length_pos_iff.mpr hne
    refine ⟨_, OrderedMap.mem_entries_of_find? hnode, ?_⟩
    simp [hlength]

/-! ### Files in their folders -/

/-- A path leads to a file through nothing but folders. -/
structure Holds (d : Disk) (p : AbsolutePath) (data : Bytes) : Prop where
  file : d.file? p.place = some data
  folders : ∀ above, above <+: p.place → above ≠ p.place → d.node? above = some .folder

theorem IsTree.holds {p : AbsolutePath} (h : d.IsTree) (hfile : d.file? p.place = some data) :
    d.Holds p data where
  file := hfile
  folders := fun _ habove hshort =>
    h.folder_above (by simp [node?_eq_file_iff.mp hfile]) habove hshort

/-- On two disks with a file in its folders the same is on the way to it. -/
theorem Holds.node?_eq {e : Disk} {p : AbsolutePath} (h : d.Holds p data) (h' : e.Holds p data)
    (habove : above <+: p.place) : d.node? above = e.node? above := by
  by_cases hall : above = p.place
  · rw [hall, node?_eq_file_iff.mp h.file, node?_eq_file_iff.mp h'.file]
  · rw [h.folders above habove hall, h'.folders above habove hall]

/-- A file can be read by the text of its path, unless the text is too long. -/
theorem Holds.read_text {p : AbsolutePath} (h : d.Holds p data) (hp : p.Normal) (hne : p.place ≠ [])
    (hnames : ∀ name ∈ p.place, IsNodeName name) (hfits : p.Fits) (working : Path) :
    d.read working p.text = .ok data := by
  have hlocate : d.locate working p.text = .ok p.place :=
    (locate_text_eq_ok_iff hp hne).mpr ⟨rfl, hfits,
      fun name hname => ⟨(hnames name hname).size_le, (hnames name hname).noNul⟩, h.folders⟩
  exact read_of_locate hlocate h.file

theorem IsTree.read_text {p : AbsolutePath} (h : d.IsTree) (hp : p.Normal) (hne : p.place ≠ [])
    (hfile : d.file? p.place = some data) (hfits : p.Fits) (working : Path) :
    d.read working p.text = .ok data :=
  (h.holds hfile).read_text hp hne (h.isNodeName_of_node? (node?_eq_file_iff.mp hfile)) hfits
    working

/-- A text that is too long leads nowhere. -/
theorem look_of_long {text : String} (hlong : ¬ text.utf8ByteSize ≤ maxText) (working : Path) :
    ∃ fault, d.look working text = .error fault := by
  have hlocate : ∃ fault, d.locate working text = .error fault := by
    simp only [locate, if_pos (Nat.not_le.mp hlong)]
    split_ifs <;> exact ⟨_, rfl⟩
  obtain ⟨fault, hfault⟩ := hlocate
  exact ⟨fault, by simp [look, hfault, bind, Except.bind]⟩

theorem isFolder_dot (h : d.node? place = some .folder) :
    d.isFolder place "." = true := by
  have habsolute : Path.isAbsolute "." = false := by decide
  have hpieces : Text.split '/' "." = ["."] := by decide
  have hlocate : d.locate place "." = .ok place := by
    refine locate_eq_ok_iff.mpr ⟨by decide, by decide, by decide, ?_⟩
    have hsize : ¬ maxName < ".".utf8ByteSize := by decide
    rw [habsolute, hpieces]
    simp [walk, h, hsize, Path.step]
  simp [isFolder, look, hlocate, h, bind, Except.bind, pure, Except.pure]

/-! ### Putting files on a disk -/

variable {front other : Path} {name : String}

/-- Something new in a folder of a tree leaves a tree. -/
theorem IsTree.put {node : Node} (h : d.IsTree) (hfront : d.node? front = some .folder)
    (hname : IsNodeName name) (hfree : d.node? (front ++ [name]) = none) :
    (d.put (front ++ [name]) node).IsTree where
  nodup := OrderedMap.nodup_keys_insert h.nodup _ _
  isNodeName := by
    intro place hplace
    rcases OrderedMap.mem_keys_insert_iff.mp hplace with rfl | hold
    · intro other hother
      rcases List.mem_append.mp hother with habove | hlast
      · exact h.isNodeName_of_node? hfront other habove
      · rwa [List.mem_singleton.mp hlast]
    · exact h.isNodeName place hold
  inFolder := by
    intro place hplace
    rw [node?_put (by simp)]
    rcases OrderedMap.mem_keys_insert_iff.mp hplace with rfl | hold
    · rw [List.dropLast_concat, if_neg (by simp), hfront]
    · have hfolder := h.inFolder place hold
      rw [if_neg, hfolder]
      intro hsame
      rw [hsame, hfree] at hfolder
      simp at hfolder

theorem ensureFolder_concat (d : Disk) (front : Path) (name : String) :
    d.ensureFolder (front ++ [name]) =
      if (d.ensureFolder front).node? (front ++ [name]) = none then
        (d.ensureFolder front).put (front ++ [name]) .folder
      else d.ensureFolder front := by
  have hfirst : (List.range (front.length + 1)).foldl (fun d depth =>
        if d.node? ((front ++ [name]).take depth) = none then
          d.put ((front ++ [name]).take depth) .folder
        else d) d = d.ensureFolder front := by
    refine List.foldl_ext _ _ _ fun e depth hdepth => ?_
    have hle : depth ≤ front.length := by
      have := List.mem_range.mp hdepth
      omega
    simp only [List.take_append_of_le_length hle]
  have hall : (front ++ [name]).take (front.length + 1) = front ++ [name] :=
    List.take_of_length_le (by simp)
  rw [ensureFolder, List.length_append, List.length_singleton, List.range_succ, List.foldl_append,
    List.foldl_cons, List.foldl_nil, hfirst]
  simp only [hall]

theorem grows_ensureFolder (d : Disk) (place : Path) : d.Grows (d.ensureFolder place) := by
  induction place using List.reverseRecOn with
  | nil => exact .refl d
  | append_singleton front name ih =>
      rw [ensureFolder_concat]
      split
      next hnone => exact ih.trans (grows_put_folder hnone)
      next => exact ih

theorem node?_ensureFolder (h : ¬ other <+: place) :
    (d.ensureFolder place).node? other = d.node? other := by
  induction place using List.reverseRecOn with
  | nil => rfl
  | append_singleton front name ih =>
      have hfront := ih fun habove => h (habove.trans (List.prefix_append _ _))
      rw [ensureFolder_concat]
      split
      next =>
        have hne : other ≠ front ++ [name] := by
          rintro rfl
          exact h List.prefix_rfl
        rw [node?_put (by simp), if_neg hne, hfront]
      next => exact hfront

theorem IsTree.ensureFolder (h : d.IsTree) (hnames : ∀ name ∈ place, IsNodeName name)
    (hway : ∀ above, above <+: place → d.file? above = none) :
    (d.ensureFolder place).IsTree ∧ (d.ensureFolder place).node? place = some .folder := by
  induction place using List.reverseRecOn with
  | nil => exact ⟨h, rfl⟩
  | append_singleton front name ih =>
      obtain ⟨htree, hfront⟩ := ih
        (fun other hother => hnames other (List.mem_append_left _ hother))
        fun above habove => hway above (habove.trans (List.prefix_append _ _))
      rw [ensureFolder_concat]
      split
      next hnone =>
        refine ⟨htree.put hfront (hnames name (by simp)) hnone, ?_⟩
        rw [node?_put (by simp), if_pos rfl]
      next hthere =>
        refine ⟨htree, node?_eq_folder hthere ?_⟩
        rw [(grows_ensureFolder d front).file?, hway _ List.prefix_rfl]

theorem IsTree.putFile (h : d.IsTree) (hnames : ∀ other ∈ front ++ [name], IsNodeName other)
    (hway : ∀ above, above <+: front → d.file? above = none)
    (hfree : d.node? (front ++ [name]) = none) (data : Bytes) :
    (d.putFile (front ++ [name]) data).IsTree := by
  have habove : ∀ other ∈ front, IsNodeName other := fun other hother =>
    hnames other (List.mem_append_left _ hother)
  obtain ⟨htree, hfront⟩ := h.ensureFolder habove hway
  rw [Disk.putFile, List.dropLast_concat]
  apply htree.put hfront (hnames name (by simp))
  rw [node?_ensureFolder, hfree]
  exact fun hpre => absurd hpre.length_le (by simp)

theorem file?_putFile (d : Disk) (front : Path) (name : String) (data : Bytes) :
    (d.putFile (front ++ [name]) data).file? (front ++ [name]) = some data := by
  rw [file?, Disk.putFile, node?_put (by simp), if_pos rfl]

theorem node?_putFile (h : ¬ other <+: front ++ [name]) (data : Bytes) :
    (d.putFile (front ++ [name]) data).node? other = d.node? other := by
  have hne : other ≠ front ++ [name] := by
    rintro rfl
    exact h List.prefix_rfl
  rw [putFile, List.dropLast_concat, node?_put (by simp), if_neg hne, node?_ensureFolder]
  exact fun habove => h (habove.trans (List.prefix_append _ _))

theorem node?_empty (h : place ≠ []) : empty.node? place = none := by
  rw [node?, if_neg h]
  rfl

/-- A disk with one file is a tree. -/
theorem isTree_putFile_empty (hnames : ∀ other ∈ front ++ [name], IsNodeName other) (data : Bytes) :
    (empty.putFile (front ++ [name]) data).IsTree := by
  refine IsTree.putFile (by decide) hnames (fun above _ => ?_) (node?_empty (by simp)) data
  by_cases htop : above = []
  · rw [htop]
    rfl
  · simp [file?, node?_empty htop]

/-- On a disk with one file there are only the file and the folders above it. -/
theorem prefix_of_node?_putFile_empty
    (h : (empty.putFile (front ++ [name]) data).node? place ≠ none) :
    place <+: front ++ [name] := by
  by_contra hother
  refine h ((node?_putFile hother data).trans (node?_empty ?_))
  rintro rfl
  exact hother List.nil_prefix

/-! ### A folder without room -/

/-- A name of so many letters. -/
def letters (n : Nat) : String := String.ofList (List.replicate n 'a')

theorem eq_of_mem_letters {n : Nat} {c : Char} (h : c ∈ (letters n).toList) : c = 'a' := by
  rw [letters, String.toList_ofList] at h
  exact List.eq_of_mem_replicate h

theorem size_letters (n : Nat) : (letters n).utf8ByteSize = n := by
  induction n with
  | zero => rfl
  | succ n ih =>
      have hone : "a".utf8ByteSize = 1 := rfl
      have hsplit : letters (n + 1) = "a" ++ letters n := by
        apply String.toList_injective
        simp [letters, List.replicate_succ]
      rw [hsplit, String.utf8ByteSize_append, ih, hone, Nat.add_comm]

theorem isNodeName_letters {n : Nat} (hpos : 0 < n) (hle : n ≤ maxName) :
    IsNodeName (letters n) := by
  have hmem : 'a' ∈ (letters n).toList := by
    simp [letters, Nat.pos_iff_ne_zero.mp hpos]
  have hne : ∀ name : String, 'a' ∉ name.toList → letters n ≠ name := by
    rintro name hnone rfl
    exact hnone hmem
  refine ⟨⟨hne _ (by decide), hne _ (by decide), hne _ (by decide), ?_⟩, ?_, ?_⟩
  · exact fun hslash => absurd (eq_of_mem_letters hslash) (by decide)
  · exact fun hnul => absurd (eq_of_mem_letters hnul) (by decide)
  · rwa [size_letters]

/-- The path of a folder that has no room for a file with the longest name. -/
def narrow : AbsolutePath := ⟨"/", List.replicate 15 (letters 255)⟩

theorem not_fits_narrow : ¬ (narrow.below [letters 255]).Fits := by
  have hsame : narrow.below [letters 255] = ⟨"/", List.replicate 16 (letters 255)⟩ := by
    rw [AbsolutePath.below, narrow, List.replicate_succ' (n := 15)]
  have hlead : "/".utf8ByteSize = 1 := rfl
  have hmax : maxText = 4095 := rfl
  rw [AbsolutePath.Fits, hsame, AbsolutePath.size_text_replicate, size_letters, hlead, hmax]
  omega

theorem isNodeName_narrow : ∀ name ∈ narrow.place, IsNodeName name := by
  intro name hname
  rw [List.eq_of_mem_replicate hname]
  exact isNodeName_letters (by decide) (by decide)

theorem normal_narrow : narrow.Normal :=
  ⟨Or.inl rfl, fun name hname => (isNodeName_narrow name hname).isName⟩

theorem fits_narrow : narrow.Fits := by
  have hlead : "/".utf8ByteSize = 1 := rfl
  have hmax : maxText = 4095 := rfl
  rw [AbsolutePath.Fits, narrow, AbsolutePath.size_text_replicate, size_letters, hlead, hmax]
  omega

theorem isNodeName_concat_letters {folder : Path} (h : ∀ name ∈ folder, IsNodeName name) :
    ∀ name ∈ folder ++ [letters 255], IsNodeName name :=
  List.forall_mem_append.mpr
    ⟨h, List.forall_mem_singleton.mpr (isNodeName_letters (by decide) (by decide))⟩

/-- A disk with one file, which has the longest name there can be. -/
def longNamed (folder : Path) : Disk :=
  empty.putFile (folder ++ [letters 255]) [49]

end Disk

end ArchiveExport
