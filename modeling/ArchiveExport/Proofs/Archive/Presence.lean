import ArchiveExport.Proofs.Archive.Opened
import ArchiveExport.Proofs.Disk.Tree

/-!
# Archives that answer alike

The files of an opened store are in memory, while loose files are read when they are asked for. As
long as they stay in their folders with the same data, an archive answers alike, whatever was read
from it before and whatever else changes on the disk.
-/

namespace ArchiveExport

/-- The files that are found below a folder are those in folders that can be listed. -/
theorem FolderArchive.mem_listed_iff {d : Disk} {root : AbsolutePath} {names : Path} {data : Bytes}
    (h : d.nodes.keys.Nodup) :
    (names, data) ∈ listed d root ↔ names ≠ [] ∧ d.file? (root.place ++ names) = some data ∧
      (root.below names.dropLast).Fits := by
  rw [listed, List.mem_filter, decide_eq_true_iff, Disk.mem_filesBelow_iff h, and_assoc]

/-- The files that were found below a folder have their paths there. -/
theorem FolderArchive.FoundBelow.exists_holds {disk : Disk} {working : AbsolutePath}
    {paths : List String} {key : String} {file : LooseFile}
    (h : FoundBelow disk working paths key file) (hworking : working.Normal) (hdisk : disk.IsTree) :
    ∃ path ∈ paths, ∃ names data, names ≠ [] ∧ key = normalize (Text.join "/" names) ∧
      file.text = ((AbsolutePath.ofText working path).below names).text ∧
      ((AbsolutePath.ofText working path).below names).Normal ∧
      disk.Holds ((AbsolutePath.ofText working path).below names) data := by
  obtain ⟨path, hpath, -, ⟨names, data⟩, hfound, hkey, htext⟩ := h
  obtain ⟨hne, hfile, -⟩ := (mem_listed_iff hdisk.nodup).mp hfound
  have hroot := AbsolutePath.normal_ofText hworking path
  have hnames : ∀ name ∈ names, Path.IsName name := fun name hname =>
    (hdisk.isNodeName_of_node? (Disk.node?_eq_file_iff.mp hfile) name
      (List.mem_append_right _ hname)).isName
  refine ⟨path, hpath, names, data, hne, hkey, ?_, AbsolutePath.normal_below hroot hnames,
    hdisk.holds hfile⟩
  rw [htext, AbsolutePath.join_text hroot hnames hne]

namespace Archive

variable {d e f : Disk} {a b : Archive}

/-- An archive needs a place: it is that of a loose file or above it. -/
def Uses : Archive → Path → Prop
  | .grf _, _ => False
  | .folder files, place => ∃ key file, files.files.find? key = some file ∧
      place <+: Path.follow [] (Text.split '/' file.text)

/-- Two archives, each with its disk, have the same files. -/
inductive Alike (d e : Disk) : Archive → Archive → Prop
  | grf {s t : Grf.Store} (hs : s.Sound) (ht : t.Sound) (hfiles : s.files = t.files)
      (hindex : s.index = t.index) : Alike d e (.grf s) (.grf t)
  | folder {files : FolderArchive} (hfiles : ∀ key file, files.files.find? key = some file →
      ∃ p data, file.text = p.text ∧ p.Normal ∧ p.place ≠ [] ∧ d.Holds p data ∧ e.Holds p data) :
      Alike d e (.folder files) (.folder files)

theorem Uses.above {above place : Path} (h : a.Uses place) (habove : above <+: place) :
    a.Uses above := by
  cases a with
  | grf store => exact h
  | folder files =>
      obtain ⟨key, file, hfile, hplace⟩ := h
      exact ⟨key, file, hfile, habove.trans hplace⟩

namespace Alike

theorem symm (h : Alike d e a b) : Alike e d b a := by
  cases h with
  | grf hs ht hfiles hindex => exact .grf ht hs hfiles.symm hindex.symm
  | folder hfiles =>
      refine .folder fun key file hfile => ?_
      obtain ⟨p, data, htext, hnormal, hne, hd, he⟩ := hfiles key file hfile
      exact ⟨p, data, htext, hnormal, hne, he, hd⟩

theorem uses_iff (h : Alike d e a b) (place : Path) : a.Uses place ↔ b.Uses place := by
  cases h with
  | grf => exact Iff.rfl
  | folder => exact Iff.rfl

theorem answer_read (h : Alike d e a b) (key : String) : (b.read e key).1 = (a.read d key).1 := by
  cases h with
  | @grf s t hs ht hfiles hindex =>
      have hfirst := (s.read_eq_load_iff_freshAt key).mpr (hs.fresh _)
      have hagain := (t.read_eq_load_iff_freshAt key).mpr (ht.fresh _)
      change (t.read key).1 = (s.read key).1
      rw [hagain, hfirst, Grf.Store.load_congr hfiles hindex]
  | @folder files hfiles =>
      change files.read e key = files.read d key
      rw [FolderArchive.read, FolderArchive.read]
      cases hfile : files.file? key with
      | none => rfl
      | some file =>
          obtain ⟨p, data, htext, hnormal, hne, hd, he⟩ := hfiles _ file hfile
          simp only [htext]
          rw [Disk.read_text_congr hnormal hne fun above habove => he.node?_eq hd habove]

theorem contains_eq (h : Alike d e a b) (key : String) : b.contains e key = a.contains d key := by
  cases h with
  | @grf s t hs ht hfiles hindex => simp only [contains, info?, Grf.Store.find?, hindex]
  | @folder files hfiles =>
      have hsize : files.size? e key = files.size? d key := by
        rw [FolderArchive.size?, FolderArchive.size?]
        cases hfile : files.file? key with
        | none => rfl
        | some file =>
            obtain ⟨p, data, htext, hnormal, hne, hd, he⟩ := hfiles _ file hfile
            simp only [htext]
            rw [Disk.look_text_congr hnormal hne fun above habove => he.node?_eq hd habove]
      simp only [contains, info?, hsize]

/-- Reading changes nothing that an archive answers. -/
theorem read_right (h : Alike d e a b) (later : Disk) (key : String) :
    Alike d e a (b.read later key).2 := by
  cases h with
  | @grf s t hs ht hfiles hindex =>
      obtain ⟨hkept, hkeptIndex⟩ := Grf.Store.files_read t key
      exact .grf hs (Grf.Store.sound_read ht key) (hfiles.trans hkept.symm)
        (hindex.trans hkeptIndex.symm)
  | folder hfiles => exact .folder hfiles

/-- What an archive does not need can change. -/
theorem disk_right (h : Alike d e a b)
    (hkept : ∀ p data, b.Uses p.place → e.Holds p data → f.Holds p data) : Alike d f a b := by
  cases h with
  | grf hs ht hfiles hindex => exact .grf hs ht hfiles hindex
  | @folder files hfiles =>
      refine .folder fun key file hfile => ?_
      obtain ⟨p, data, htext, hnormal, hne, hd, he⟩ := hfiles key file hfile
      refine ⟨p, data, htext, hnormal, hne, hd, hkept p data ⟨key, file, hfile, ?_⟩ he⟩
      rw [htext, AbsolutePath.follow_split_text hnormal hne]

end Alike

/-! ### Archives that were just opened -/

section Opened

variable {disk : Disk} {working : AbsolutePath} {paths : List String} {limit : Int}

/-- An archive on the disk that it was opened from answers like itself. -/
theorem Opened.alike (h : Opened disk working paths limit a) (hworking : working.Normal)
    (hdisk : disk.IsTree) : Alike disk disk a a := by
  have hsound := h.sound
  cases a with
  | grf store => exact .grf hsound hsound rfl rfl
  | folder files =>
      refine .folder fun key file hfile => ?_
      obtain ⟨path, -, names, data, hne, -, htext, hnormal, hholds⟩ :=
        (hsound key file hfile).exists_holds hworking hdisk
      exact ⟨_, data, htext, hnormal, by simp [AbsolutePath.below, hne], hholds, hholds⟩

end Opened

end Archive

end ArchiveExport
