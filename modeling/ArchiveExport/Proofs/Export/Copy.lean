import ArchiveExport.Proofs.Archive.Listing
import ArchiveExport.Proofs.Disk.Mirror
import ArchiveExport.Proofs.Export.Books
import ArchiveExport.Proofs.Export.Raw
import ArchiveExport.Proofs.Export.Rerun

/-!
# Copies of folders

A script that exports everything untouched copies a folder: all its files are written, each below
the output folder where it was below its own, and none of them is in the way of another one.
-/

namespace ArchiveExport

namespace Site

variable {log : Option Path} {source : Path} {first site left : Site}

/-- A key of an archive can be copied: it is the path of a file in a folder, spelled as it is, it
reads as the file, and the path of its copy is not too long and not one that the archive needs. -/
structure CanCopy (first : Site) (source names : Path) (data : Bytes) : Prop where
  file : first.disk.file? (source ++ names) = some data
  plain : Path.Plain (Text.join "/" names)
  split : Text.split '/' (Text.join "/" names) = names
  read : (first.archive.read first.disk (Text.join "/" names)).1 = .ok data
  fits : (first.sink.root.below names).Fits
  unused : ¬ first.archive.Uses (first.sink.root.place ++ names)

theorem CanCopy.place_eq {names : Path} {data : Bytes} (h : first.CanCopy source names data) :
    first.sink.place (Text.join "/" names) = first.sink.root.place ++ names := by
  rw [Sink.place_of_plain h.plain, h.split]

/-- Somewhere on the way of copying a folder, the archive still answers as at first, and the output
folder has nothing but files and folders of the folder. -/
structure Copying (source : Path) (first site : Site) : Prop where
  alike : first.Alike site
  mirrors : first.disk.Mirrors source site.disk first.sink.root.place

/-- The output folder of a site, which can be any place but the top of the disk. -/
structure HasRoot (site : Site) : Prop where
  normal : site.sink.root.Normal
  ne_top : site.sink.root.place ≠ []
  isNodeName : ∀ name ∈ site.sink.root.place, Disk.IsNodeName name

namespace Copying

theorem noted (h : Copying source first site) (hnoted : site.Noted log left)
    (hlog : ∀ place ∈ log, first.sink.root.place.Apart place ∧ ¬ first.archive.Uses place) :
    Copying source first left where
  alike := h.alike.wrote_right (.of_noted hnoted) hnoted.archive
    (fun place hplace => (hlog place hplace).2) (by simp)
  mirrors := by
    have hapart := fun place hplace => (hlog place hplace).1
    constructor
    · intro above habove
      rw [Disk.file?, hnoted.node? (log_ne_of_apart hapart (Or.inl habove)), ← Disk.file?]
      exact h.mirrors.way above habove
    · intro names hne
      rw [hnoted.node? (log_ne_of_apart hapart (Or.inr (List.prefix_append _ _)))]
      exact h.mirrors.below names hne

/-- The copy of a file can be written, whatever has been copied before. -/
theorem exists_write {names : Path} {data : Bytes} (h : Copying source first site)
    (hroot : first.HasRoot) (htree : first.disk.IsTree) (hcan : first.CanCopy source names data) :
    ∃ sink left target,
      site.sink.write site.disk (Text.join "/" names) data = (sink, left, .ok target) ∧
        first.disk.Mirrors source left first.sink.root.place := by
  have hne : names ≠ [] := by
    rw [← hcan.split]
    exact Text.split_ne_nil _ _
  obtain ⟨front, name, rfl⟩ := (List.eq_nil_or_concat' names).resolve_left hne
  have hrootEq := h.alike.root
  have hresolve : site.sink.resolve (Text.join "/" (front ++ [name])) =
      .ok ⟨site.sink.root.lead, first.sink.root.place ++ front ++ [name]⟩ := by
    rw [Sink.resolve_eq_ok_iff, h.alike.place_eq, hcan.place_eq, hrootEq, List.append_assoc]
    exact ⟨hroot.ne_top, List.prefix_append _ _, by simp, rfl, rfl⟩
  obtain ⟨left, hleft, hwrite⟩ := Sink.write_eq_of_resolve (hrootEq ▸ hroot.normal) hresolve
    (by simp [hroot.ne_top]) site.disk data
  have hfree := h.mirrors.writeFault?_eq_none htree hcan.file hroot.normal hroot.isNodeName
    hcan.fits
  rw [hrootEq] at hleft hwrite
  rw [hfree] at hwrite
  exact ⟨_, left, _, hwrite, h.mirrors.written htree hcan.file hfree hleft⟩

/-- A file is copied, whatever has been copied before. -/
theorem copy {names : Path} {data : Bytes} (h : Copying source first site)
    (hroot : first.HasRoot) (htree : first.disk.IsTree) (hcan : first.CanCopy source names data)
    (debug : Bool) :
    Step.trial .raw (Step.copy (Text.join "/" names)) site =
        ⟨.raw, .ok (), [(Text.join "/" names, data)]⟩ ∧
      Copying source first
        (Step.siteAfter debug .raw (Step.copy (Text.join "/" names)) site) := by
  obtain ⟨sink, left, target, hwrite, hmirrors⟩ := h.exists_write hroot htree hcan
  rcases hread : site.archive.read site.disk (Text.join "/" names) with ⟨answer, archive⟩
  have hanswer := h.alike.archive.answer_read (Text.join "/" names)
  rw [hread, hcan.read] at hanswer
  obtain rfl : answer = .ok data := hanswer
  obtain ⟨htrial, hafter⟩ := Step.trial_copy debug hread hwrite
  have halike := h.alike.read_right (Text.join "/" names)
  rw [hread] at halike
  have hnormal : ({ site with archive } : Site).sink.root.Normal := halike.root ▸ hroot.normal
  have hwrote := Wrote.of_write hnormal none (Text.join "/" names) data hwrite
  refine ⟨htrial, ?_⟩
  rw [hafter]
  refine ⟨halike.wrote_right hwrote rfl (by simp) fun w hw => ?_, hmirrors⟩
  obtain rfl : w = (Text.join "/" names, data) := List.mem_singleton.mp hw
  rw [hcan.place_eq]
  exact hcan.unused

/-- Members that all can be copied are written one after the other, and no step fails. -/
theorem trials (h : Copying source first site) (hroot : first.HasRoot) (htree : first.disk.IsTree)
    (debug : Bool) {keys : List String}
    (hkeys : ∀ key ∈ keys, ∃ names data, key = Text.join "/" names ∧
      first.CanCopy source names data) :
    let steps := keys.map fun key => (OutputKind.raw, Step.copy key)
    (∀ t ∈ Step.trials debug steps site, t.isFailed = false) ∧
      ((Step.trials debug steps site).flatMap Trial.writes).map Prod.fst = keys ∧
      Copying source first (Step.siteBehind debug steps site) := by
  induction keys generalizing site with
  | nil => exact ⟨by simp [Step.trials], rfl, h⟩
  | cons key keys ih =>
      obtain ⟨names, data, rfl, hcan⟩ := hkeys key List.mem_cons_self
      obtain ⟨htrial, hleft⟩ := h.copy hroot htree hcan debug
      obtain ⟨hfine, hwritten, hbehind⟩ :=
        ih hleft fun other hother => hkeys other (List.mem_cons_of_mem _ hother)
      refine ⟨?_, ?_, hbehind⟩
      · intro t ht
        rcases List.mem_cons.mp ht with rfl | hrest
        · rw [htrial]
          rfl
        · exact hfine t hrest
      · rw [List.map_cons, Step.trials, List.flatMap_cons, List.map_append, htrial, hwritten]
        rfl

theorem dispatch (h : Copying source first site) (hroot : first.HasRoot)
    (htree : first.disk.IsTree) (d : Dispatcher) {entry : Entry} (hne : entry.members ≠ [])
    (hkeys : ∀ key ∈ entry.members, ∃ names data, key = Text.join "/" names ∧
      first.CanCopy source names data) :
    ((d.dispatch entry .rawOnly).run site).1.status = .success ∧
      ((d.dispatch entry .rawOnly).writes site).map Prod.fst = entry.members ∧
      Copying source first ((d.dispatch entry .rawOnly).run site).2 := by
  have hsteps := d.steps_rawOnly entry
  obtain ⟨hfine, hwritten, hbehind⟩ := h.trials hroot htree d.debug hkeys
  obtain ⟨outputs, -, hrun, hwrites⟩ := d.run_dispatch entry .rawOnly site
  rw [← hsteps] at hfine hwritten hbehind
  refine ⟨?_, by rw [hwrites, hwritten], by rw [hrun]; exact hbehind⟩
  refine (d.status_dispatch entry .rawOnly site).2.1.mpr ⟨hfine, fun hnothing => hne ?_⟩
  rw [← hwritten, ← hwrites, hnothing, List.map_nil]

end Copying

end Site

namespace Exporter

open Disk (letters narrow)

variable {e : Exporter} {d : Disk} {working root : AbsolutePath} {path : String}

/-- A session on an archive and the disk it was opened from, with an output folder. -/
def freshSession (a : Archive) (d : Disk) (root : AbsolutePath) : Session where
  site := { archive := a, disk := d, sink := { root }, console := {} }
  now := ⟨0⟩

/-- A session on a folder with one file, which has the longest name there can be. -/
def longNamed (working root : AbsolutePath) : Session :=
  let disk := Disk.longNamed working.place
  freshSession (.folder (FolderArchive.open {} disk working "." 0).1) disk root

end Exporter

end ArchiveExport
