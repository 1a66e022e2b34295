import ArchiveExport.Proofs.Disk.Tree
import ArchiveExport.Proofs.Disk.Writing

/-!
# Copies of trees

Files that are copied from one folder of a tree to another one cannot be in each other's way: where
a folder is needed for one of them, there is a folder in the tree, and no file can be there for
another one.
-/

namespace ArchiveExport.Disk

variable {d e f : Disk} {source front : Path} {root : AbsolutePath} {name : String} {data : Bytes}

/-- A folder without anything in it, which may have to be made first. -/
structure Vacant (d : Disk) (root : Path) : Prop where
  isNodeName : ∀ name ∈ root, IsNodeName name
  way : ∀ above, above <+: root → d.file? above = none
  empty : ∀ names, names ≠ [] → d.node? (root ++ names) = none

instance (d : Disk) (root : Path) : Decidable (d.Vacant root) :=
  decidable_of_iff ((∀ name ∈ root, IsNodeName name) ∧
      (∀ above ∈ root.inits, d.file? above = none) ∧
        ∀ place ∈ d.nodes.keys, root <+: place → place = root) <| by
    constructor
    · rintro ⟨hnames, hway, hkeys⟩
      refine ⟨hnames, fun above habove => hway above ((List.mem_inits _ _).mpr habove), ?_⟩
      intro names hne
      by_contra hthere
      obtain ⟨node, hnode⟩ := Option.ne_none_iff_exists'.mp hthere
      have hsame := hkeys _ (mem_keys_of_node? (by simp [hne]) hnode) (List.prefix_append _ _)
      exact hne (by simpa using hsame)
    · rintro ⟨hnames, hway, hempty⟩
      refine ⟨hnames, fun above habove => hway above ((List.mem_inits _ _).mp habove), ?_⟩
      rintro place hplace ⟨rest, rfl⟩
      by_contra hne
      have hrest : rest ≠ [] := fun hnone => hne (by simp [hnone])
      obtain ⟨node, hnode⟩ := OrderedMap.mem_keys_iff_exists_find?.mp hplace
      have hthere := hempty rest hrest
      rw [node?, if_neg (by simp [hrest]), hnode] at hthere
      simp at hthere

/-- What the second disk has in one folder, the first one has in another: the same files, and
folders where there are folders. -/
structure Mirrors (d : Disk) (source : Path) (e : Disk) (root : Path) : Prop where
  way : ∀ above, above <+: root → e.file? above = none
  below : ∀ names, names ≠ [] → e.node? (root ++ names) ≠ none →
    e.node? (root ++ names) = d.node? (source ++ names)

theorem Vacant.mirrors {root : Path} (h : d.Vacant root) (source : Path) :
    d.Mirrors source d root where
  way := h.way
  below := fun names hne hthere => absurd (h.empty names hne) hthere

namespace Mirrors

/-- A place above a file has folders in the tree, so it has no file in the copy. -/
theorem file?_eq_none {data : Bytes} {names above : Path} (h : d.Mirrors source e root.place)
    (hd : d.IsTree) (hfile : d.file? (source ++ names) = some data)
    (habove : above <+: root.place ++ names) (hshort : above ≠ root.place ++ names) :
    e.file? above = none := by
  rcases List.prefix_or_prefix_of_prefix habove (List.prefix_append _ _) with hup | ⟨start, rfl⟩
  · exact h.way above hup
  · by_cases hne : start = []
    · subst hne
      exact h.way _ (by simp)
    · have hstart := (List.prefix_append_right_inj root.place).mp habove
      have hfolder : d.node? (source ++ start) = some .folder := by
        refine hd.folder_above (by simp [node?_eq_file_iff.mp hfile])
          ((List.prefix_append_right_inj source).mpr hstart) ?_
        intro hsame
        exact hshort (by rw [List.append_cancel_left hsame])
      by_cases hthere : e.node? (root.place ++ start) = none
      · simp [file?, hthere]
      · simp [file?, h.below start hne hthere, hfolder]

/-- Once all files of the tree are in the copy, there are no others. -/
theorem file?_eq {names root : Path} (h : d.Mirrors source e root) (hne : names ≠ [])
    (hall : (d.file? (source ++ names)).isSome → (e.file? (root ++ names)).isSome) :
    e.file? (root ++ names) = d.file? (source ++ names) := by
  by_cases hthere : e.node? (root ++ names) = none
  · have hnone : e.file? (root ++ names) = none := by simp [file?, hthere]
    rw [hnone, Option.isSome_none] at hall
    rw [hnone, Option.not_isSome_iff_eq_none.mp fun hfile => Bool.false_ne_true (hall hfile)]
  · rw [file?, file?, h.below names hne hthere]

/-- Every name on the way to the copy of a file can be followed. -/
theorem hindrance?_eq_none (h : d.Mirrors source e root.place) (hd : d.IsTree)
    (hfile : d.file? (source ++ names) = some data) (hroot : root.Normal)
    (hnames : ∀ other ∈ root.place, IsNodeName other) (hfits : (root.below names).Fits)
    {start : Path} {next : String} (hpre : start ++ [next] <+: root.place ++ names) :
    e.hindrance? root.lead start next = none := by
  have hstands : ∀ other ∈ start ++ [next], IsNodeName other := by
    intro other hother
    rcases List.mem_append.mp (hpre.subset hother) with habove | hbelow
    · exact hnames other habove
    · exact hd.isNodeName_of_node? (node?_eq_file_iff.mp hfile) other
        (List.mem_append_right _ hbelow)
  have hnormal : (AbsolutePath.mk root.lead (start ++ [next])).Normal :=
    ⟨hroot.lead, fun other hother => (hstands other hother).isName⟩
  rw [hindrance?_eq_none_iff, AbsolutePath.nul_not_mem_text_iff hnormal]
  refine ⟨fun other hother => (hstands other hother).noNul,
    (AbsolutePath.size_text_le hpre).trans hfits,
    h.file?_eq_none hd hfile ((List.prefix_append _ _).trans hpre) ?_,
    (hstands next (by simp)).size_le⟩
  rintro rfl
  exact Path.ne_concat_of_prefix hpre next rfl

/-- Nothing keeps a file of the tree from being written to the copy. -/
theorem writeFault?_eq_none (h : d.Mirrors source e root.place) (hd : d.IsTree)
    (hfile : d.file? (source ++ (front ++ [name])) = some data)
    (hroot : root.Normal) (hnames : ∀ other ∈ root.place, IsNodeName other)
    (hfits : (root.below (front ++ [name])).Fits) :
    e.writeFault? root.lead (root.place ++ front) name = none := by
  have hshort : root.place ++ front ≠ root.place ++ (front ++ [name]) := by simp
  have hway : e.wayFault? root.lead (root.place ++ front) = none := by
    refine wayFault?_eq_none_iff.mpr fun start next hpre =>
      h.hindrance?_eq_none hd hfile hroot hnames hfits ?_
    exact hpre.trans ((List.prefix_append_right_inj _).mpr (List.prefix_append _ _))
  have hnext : e.hindrance? root.lead (root.place ++ front) name = none :=
    h.hindrance?_eq_none hd hfile hroot hnames hfits (by simp)
  have hfolder : e.file? (root.place ++ front) = none :=
    h.file?_eq_none hd hfile ((List.prefix_append_right_inj _).mpr (List.prefix_append _ _)) hshort
  have hlast : e.hasFolder (root.place ++ (front ++ [name])) = false := by
    by_contra hthere
    have hnode : e.node? (root.place ++ (front ++ [name])) = some .folder := by
      simpa [hasFolder] using hthere
    have hsame := h.below (front ++ [name]) (by simp) (by simp [hnode])
    rw [hnode, node?_eq_file_iff.mp hfile] at hsame
    simp at hsame
  rw [writeFault?, madeAnswer_eq_ok_iff.mpr ⟨hway, hfolder⟩]
  simp [hnext, hlast]

/-- With one more file of the tree, the copy still has nothing else. -/
theorem written (h : d.Mirrors source e root.place) (hd : d.IsTree)
    (hfile : d.file? (source ++ (front ++ [name])) = some data)
    (hfree : e.writeFault? root.lead (root.place ++ front) name = none)
    (hwritten : e.Written root.lead (root.place ++ front) name data f) :
    d.Mirrors source f root.place where
  way := by
    intro above habove
    rw [hwritten.file?_eq (Path.ne_concat_of_prefix (habove.trans (List.prefix_append _ _)) name)]
    exact h.way above habove
  below := by
    intro names hne hthere
    by_cases hlast : names = front ++ [name]
    · subst hlast
      have hnode := hwritten.node?_last
      rw [if_pos hfree, List.append_assoc] at hnode
      rw [hnode, node?_eq_file_iff.mp hfile]
    · have hother : root.place ++ names ≠ root.place ++ front ++ [name] := by
        simpa [List.append_assoc] using hlast
      rw [hwritten.node?_eq hother] at hthere ⊢
      split
      next hnew =>
        -- a folder that was made is above the file, and so is its place in the tree
        have hfront := (List.prefix_append_right_inj root.place).mp hnew.1
        have habove : source ++ names <+: source ++ (front ++ [name]) :=
          (List.prefix_append_right_inj source).mpr (hfront.trans (List.prefix_append _ _))
        have hfolder := hd.folder_above (by simp [node?_eq_file_iff.mp hfile]) habove
          (by simpa using hlast)
        exact hfolder.symm
      next hold =>
        rw [if_neg hold] at hthere
        exact h.below names hne hthere

end Mirrors

end ArchiveExport.Disk
