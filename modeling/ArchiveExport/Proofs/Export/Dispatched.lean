import ArchiveExport.Export.Session
import ArchiveExport.Proofs.Archive.Store

/-!
# Entries dispatched in turn

Entries are dispatched one after the other, each at the site that the ones before it have left.
Between two of them a session takes note of what became of the last one, and that changes nothing
but the console and the log file.
-/

namespace ArchiveExport

/-! ### Keys -/

/-- Reading an entry keeps the keys. -/
theorem Archive.keys_read (a : Archive) (disk : Disk) (key : String) :
    (a.read disk key).2.keys = a.keys := by
  cases a with
  | grf store =>
      have hindex : (store.read key).2.index = store.index := (Grf.Store.files_read store key).2
      exact congrArg OrderedMap.keys hindex
  | folder files => rfl

/-- No job changes the keys of the archive. -/
theorem Job.keys_run {α : Type} (job : Job α) (site : Site) :
    (job.run site).2.archive.keys = site.archive.keys := by
  induction job generalizing site with
  | done value => rfl
  | read key next ih =>
      rw [run, ih]
      exact Archive.keys_read site.archive site.disk key
  | contains key next ih => rw [run, ih]
  | write path data next ih => rw [run, ih]
  | print channel line next ih => rw [run, ih]

/-! ### Notes -/

/-- The disk without the log file. -/
def Disk.withoutLog (log : Option Path) (d : Disk) : Disk :=
  match log with
  | none => d
  | some place => d.remove place

/-- The second site is the first one but for the console and the log file. -/
structure Site.Noted (log : Option Path) (site noted : Site) : Prop where
  archive : noted.archive = site.archive
  sink : noted.sink = site.sink
  disk : noted.disk.withoutLog log = site.disk.withoutLog log

namespace Site.Noted

variable {log : Option Path} {site noted last : Site}

theorem refl (log : Option Path) (site : Site) : site.Noted log site :=
  ⟨rfl, rfl, rfl⟩

theorem symm (h : site.Noted log noted) : noted.Noted log site :=
  ⟨h.archive.symm, h.sink.symm, h.disk.symm⟩

theorem trans (h : site.Noted log noted) (h' : noted.Noted log last) : site.Noted log last :=
  ⟨h'.archive.trans h.archive, h'.sink.trans h.sink, h'.disk.trans h.disk⟩

end Site.Noted

theorem Disk.remove_append (d : Disk) (place : Path) (data : Bytes) :
    (d.append place data).remove place = d.remove place := by
  rw [append]
  split
  next before hbefore =>
    rw [remove, remove, put, OrderedMap.erase_insert]
  next hnone => rfl

/-! ### Dispatches -/

/-- Entries with their modes are dispatched one after the other from a site on, with notes before
each of them and behind the last one; the outcomes are theirs, in order. -/
inductive Dispatched (d : Dispatcher) (log : Option Path) :
    List (Entry × Mode) → Site → List Outcome → Site → Prop
  | done {site last : Site} (hnoted : site.Noted log last) : Dispatched d log [] site [] last
  | next {entry : Entry} {mode : Mode} {agenda : List (Entry × Mode)} {o : Outcome}
      {outcomes : List Outcome} {site noted left last : Site} (hnoted : site.Noted log noted)
      (hrun : (d.dispatch entry mode).run noted = (o, left))
      (hrest : Dispatched d log agenda left outcomes last) :
      Dispatched d log ((entry, mode) :: agenda) site (o :: outcomes) last

namespace Dispatched

variable {d : Dispatcher} {log : Option Path} {agenda later : List (Entry × Mode)}
  {outcomes others : List Outcome} {site noted middle last : Site}

theorem of_noted (hnoted : site.Noted log noted) (h : Dispatched d log agenda noted outcomes last) :
    Dispatched d log agenda site outcomes last := by
  cases h with
  | done hlast => exact .done (hnoted.trans hlast)
  | next hfirst hrun hrest => exact .next (hnoted.trans hfirst) hrun hrest

theorem append (h : Dispatched d log agenda site outcomes middle)
    (h' : Dispatched d log later middle others last) :
    Dispatched d log (agenda ++ later) site (outcomes ++ others) last := by
  induction h with
  | done hnoted => exact of_noted hnoted h'
  | next hnoted hrun hrest ih => exact .next hnoted hrun (ih h')

theorem keys (h : Dispatched d log agenda site outcomes last) :
    last.archive.keys = site.archive.keys := by
  induction h with
  | done hnoted => rw [hnoted.archive]
  | next hnoted hrun hrest ih =>
      have hleft := (Job.keys_run _ _).symm.trans (congrArg (fun ran => ran.2.archive.keys) hrun)
      rw [ih, ← hnoted.archive]
      exact hleft.symm

end Dispatched

end ArchiveExport
