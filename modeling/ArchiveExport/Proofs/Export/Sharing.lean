import ArchiveExport.Proofs.Disk.Merging
import ArchiveExport.Proofs.Export.Rerun

/-!
# Jobs that share a site

Several jobs start at one site. Next to the site that they share, each of them also has one of its
own. As long as their targets are apart and the archive is not written over, every access gets at
the shared site the answer that it gets at the own one, and the shared disk has merged what is on
the own ones.
-/

namespace ArchiveExport

/-! ### Single writes -/

namespace Sink

variable {sink other : Sink} {start part whole : Disk} {before after : List Disk}
  {log : Option Path} {targets : List Path} {path : String}

/-- A write changes a disk at the target of its path. -/
theorem changedAt_write (hroot : sink.root.Normal) (h : start.ChangedAt targets part)
    (htarget : ∀ target, sink.resolve path = .ok target → target.place ∈ targets) (data : Bytes) :
    start.ChangedAt targets (sink.write part path data).2.1 := by
  cases hresolve : sink.resolve path with
  | error fault => simpa [write_of_resolve_eq_error hresolve] using h
  | ok target =>
      obtain ⟨front, name, rfl, -, -, hne⟩ := exists_last_of_resolve hresolve
      exact h.written (htarget _ hresolve) (written_of_resolve hroot hresolve hne part data).1

/-- A write to a target that the other parts spare gets one answer on the merged disk and on its own
part, and what it leaves is merged. -/
theorem merges_write (hroot : sink.root.Normal) (hsame : other.root = sink.root)
    (h : Disk.Merges log start (before ++ part :: after) whole)
    (hclear : ∀ target, sink.resolve path = .ok target →
      (∀ d ∈ before ++ after, start.Spares target.place d) ∧
        ∀ above, above <+: target.place → log ≠ some above) (data : Bytes) :
    (other.write whole path data).2.2 = (sink.write part path data).2.2 ∧
      Disk.Merges log start (before ++ (sink.write part path data).2.1 :: after)
        (other.write whole path data).2.1 := by
  have hresolve' : other.resolve path = sink.resolve path := by
    rw [resolve, resolve, hsame]
  cases hresolve : sink.resolve path with
  | error fault =>
      rw [write_of_resolve_eq_error hresolve,
        write_of_resolve_eq_error (hresolve'.trans hresolve)]
      exact ⟨rfl, h⟩
  | ok target =>
      obtain ⟨front, name, rfl, -, -, hne⟩ := exists_last_of_resolve hresolve
      obtain ⟨hspared, hlog⟩ := hclear _ hresolve
      have hresolved : other.resolve path = .ok ⟨other.root.lead, front ++ [name]⟩ := by
        rw [hresolve', hresolve, hsame]
      obtain ⟨hpart, hanswer⟩ := written_of_resolve hroot hresolve hne part data
      obtain ⟨hwhole, hanswer'⟩ := written_of_resolve (hsame ▸ hroot) hresolved hne whole data
      rw [hsame] at hwhole hanswer'
      refine ⟨?_, h.written hspared hlog hpart hwhole⟩
      rw [hanswer', hanswer, (h.likeUpTo hspared hlog).writeFault?_eq]

end Sink

/-! ### Jobs of their own -/

namespace Job

variable {α : Type}

/-- The places that a job tries to write to at a site, in order. -/
def targets : Job α → Site → List Path
  | .done _, _ => []
  | .read key next, site =>
    let (answer, archive) := site.archive.read site.disk key
    (next answer).targets { site with archive }
  | .contains key next, site => (next (site.archive.contains site.disk key)).targets site
  | .write path data next, site =>
    let (sink, disk, answer) := site.sink.write site.disk path data
    (site.sink.resolve path).toOption.toList.map AbsolutePath.place ++
      (next (answer.map fun _ => ())).targets { site with sink, disk }
  | .print channel line next, site =>
    next.targets { site with console := site.console.printLine channel line }

theorem mem_targets_write {site : Site} {path : String} {target : AbsolutePath}
    (h : site.sink.resolve path = .ok target) (data : Bytes)
    (next : Except Sink.Fault Unit → Job α) :
    target.place ∈ (Job.write path data next).targets site := by
  rcases hwrite : site.sink.write site.disk path data with ⟨sink, disk, answer⟩
  simp [targets, hwrite, h, Except.toOption]

theorem mem_targets_of_mem_advance (job : Job α) (site : Site) {target : Path}
    (h : target ∈ (job.advance site).1.targets (job.advance site).2) :
    target ∈ job.targets site := by
  cases job with
  | done value => exact h
  | read key next => exact h
  | contains key next => exact h
  | write path data next =>
      simp only [advance, targets] at h ⊢
      exact List.mem_append_right _ h
  | print channel line next => exact h

/-- An access changes a disk at a target of the job. -/
theorem changedAt_advance (job : Job α) {start : Disk} {targets : List Path} {site : Site}
    (hroot : site.sink.root.Normal) (h : start.ChangedAt targets site.disk)
    (htargets : ∀ target ∈ job.targets site, target ∈ targets) :
    start.ChangedAt targets (job.advance site).2.disk := by
  cases job with
  | done value => exact h
  | read key next => exact h
  | contains key next => exact h
  | write path data next =>
      have hchanged := Sink.changedAt_write hroot h
        (fun target hresolve => htargets _ (mem_targets_write hresolve data next)) data
      rcases hwrite : site.sink.write site.disk path data with ⟨sink, disk, answer⟩
      rw [hwrite] at hchanged
      simp only [advance, hwrite]
      exact hchanged
  | print channel line next => exact h

end Job

/-- A job at a site of its own, with all targets that it has there. -/
structure Lane (α : Type) where
  targets : List Path
  job : Job α
  site : Site

namespace Lane

variable {α : Type} {start : Site} {log : Option Path}

/-- The lane behind the first access of its job. -/
def advance (lane : Lane α) : Lane α where
  targets := lane.targets
  job := (lane.job.advance lane.site).1
  site := (lane.job.advance lane.site).2

/-- The lane once its job is done. -/
def finish (lane : Lane α) : Lane α where
  targets := lane.targets
  job := .done (lane.job.run lane.site).1
  site := (lane.job.run lane.site).2

theorem finish_advance (lane : Lane α) : lane.advance.finish = lane.finish := by
  rw [finish, finish, advance, Job.run_advance]

/-- What holds of a lane on the way of its job from a start. -/
structure Sound (start : Site) (log : Option Path) (lane : Lane α) : Prop where
  alike : start.Alike lane.site
  changedAt : start.disk.ChangedAt lane.targets lane.site.disk
  targets : ∀ target ∈ lane.job.targets lane.site, target ∈ lane.targets
  unlogged : ∀ target ∈ lane.targets, ∀ above, above <+: target → log ≠ some above
  unused : ∀ w ∈ lane.job.writes lane.site, ¬ start.archive.Uses (start.sink.place w.1)

namespace Sound

variable {lane : Lane α}

theorem root_normal (h : lane.Sound start log) (hroot : start.sink.root.Normal) :
    lane.site.sink.root.Normal := h.alike.root ▸ hroot

theorem advance (h : lane.Sound start log) (hroot : start.sink.root.Normal) :
    lane.advance.Sound start log where
  alike := lane.job.alike_advance h.alike hroot h.unused
  changedAt := lane.job.changedAt_advance (h.root_normal hroot) h.changedAt h.targets
  targets := fun target htarget =>
    h.targets target (lane.job.mem_targets_of_mem_advance lane.site htarget)
  unlogged := h.unlogged
  unused := fun w hw => h.unused w (lane.job.mem_writes_of_mem_advance lane.site hw)

end Sound

end Lane

/-! ### Shared sites -/

/-- The lanes of some jobs, all from one start and with targets that are apart, and the site that
the jobs share. -/
structure Site.Shared {α : Type} (start : Site) (log : Option Path) (lanes : List (Lane α))
    (site : Site) : Prop where
  sound : ∀ lane ∈ lanes, lane.Sound start log
  apart : lanes.Pairwise fun a b => ∀ p ∈ a.targets, ∀ q ∈ b.targets, p.Apart q
  alike : start.Alike site
  merges : Disk.Merges log start.disk (lanes.map fun lane => lane.site.disk) site.disk

namespace Site.Shared

variable {α : Type} {start site : Site} {log : Option Path} {lanes before after : List (Lane α)}
  {lane lane' : Lane α}

/-- Taking note changes nothing that matters. -/
theorem noted {left : Site} (h : start.Shared log lanes site) (hnoted : site.Noted log left)
    (hlog : ∀ place ∈ log, ¬ start.archive.Uses place) : start.Shared log lanes left where
  sound := h.sound
  apart := h.apart
  alike := h.alike.wrote_right (.of_noted hnoted) hnoted.archive hlog (by simp)
  merges := by
    constructor
    · intro place hplace
      rw [hnoted.node? hplace]
      exact h.merges.takes place hplace
    · intro place hplace
      rw [hnoted.node? hplace]
      exact h.merges.comes place hplace

/-- The other lanes have nothing but new folders on the ways to the targets of a lane. -/
theorem spares (h : start.Shared log (before ++ lane :: after) site) (target : Path)
    (htarget : target ∈ lane.targets) :
    ∀ d ∈ (before ++ after).map fun other => other.site.disk, start.disk.Spares target d := by
  intro d hd
  obtain ⟨other, hother, rfl⟩ := List.mem_map.mp hd
  have hsound := h.sound other (List.perm_middle.mem_iff.mpr (List.mem_cons_of_mem _ hother))
  apply hsound.changedAt.spares
  intro place hplace
  obtain ⟨-, hback, hfront⟩ := List.pairwise_append.mp h.apart
  rcases List.mem_append.mp hother with hbefore | hafter
  · exact hfront other hbefore lane List.mem_cons_self place hplace target htarget
  · exact ((List.pairwise_cons.mp hback).1 other hafter target htarget place hplace).symm

/-- A lane and the shared site can both go on. -/
theorem replace (h : start.Shared log (before ++ lane :: after) site) {later : Site}
    (hsound : lane'.Sound start log) (htargets : lane'.targets = lane.targets)
    (halike : start.Alike later)
    (hmerges : Disk.Merges log start.disk ((before.map fun lane => lane.site.disk) ++
      lane'.site.disk :: after.map fun lane => lane.site.disk) later.disk) :
    start.Shared log (before ++ lane' :: after) later where
  sound := by
    intro other hother
    rcases List.mem_cons.mp (List.perm_middle.mem_iff.mp hother) with rfl | hrest
    · exact hsound
    · exact h.sound other (List.perm_middle.mem_iff.mpr (List.mem_cons_of_mem _ hrest))
  apart := by
    have hapart := h.apart
    rw [List.pairwise_append, List.pairwise_cons] at hapart ⊢
    simpa only [List.forall_mem_cons, htargets] using hapart
  alike := halike
  merges := by
    rw [List.map_append, List.map_cons]
    exact hmerges

/-- An access is answered at the shared site as on the lane of its job. -/
theorem advance (h : start.Shared log (before ++ lane :: after) site)
    (hroot : start.sink.root.Normal) :
    (lane.job.advance site).1 = lane.advance.job ∧
      start.Shared log (before ++ lane.advance :: after) (lane.job.advance site).2 := by
  have hlane := h.sound lane (by simp)
  have hnext := hlane.advance hroot
  have hmerges := h.merges
  rw [List.map_append, List.map_cons] at hmerges
  obtain ⟨targets, job, own⟩ := lane
  cases job with
  | done value => exact ⟨rfl, h⟩
  | read key next =>
      have hanswer := (h.alike.archive.answer_read key).trans
        (hlane.alike.archive.answer_read key).symm
      exact ⟨congrArg next hanswer, h.replace hnext rfl (h.alike.read_right key) hmerges⟩
  | contains key next =>
      have hanswer := (h.alike.archive.contains_eq key).trans
        (hlane.alike.archive.contains_eq key).symm
      exact ⟨congrArg next hanswer, h.replace hnext rfl h.alike hmerges⟩
  | write path data next =>
      -- the paths written so far may differ between the two sites, the roots do not
      have hsame : site.sink.root = own.sink.root := h.alike.root.trans hlane.alike.root.symm
      have hclear : ∀ target, own.sink.resolve path = .ok target →
          (∀ d ∈ (before.map fun lane => lane.site.disk) ++ after.map fun lane => lane.site.disk,
            start.disk.Spares target.place d) ∧
          ∀ above, above <+: target.place → log ≠ some above := by
        intro target hresolve
        have htarget := hlane.targets _ (Job.mem_targets_write hresolve data next)
        rw [← List.map_append]
        exact ⟨h.spares target.place htarget, hlane.unlogged target.place htarget⟩
      obtain ⟨hanswer, hmerged⟩ :=
        Sink.merges_write (hlane.root_normal hroot) hsame hmerges hclear data
      have hunused := hlane.unused
      rcases hown : own.sink.write own.disk path data with ⟨sink, disk, answer⟩
      rcases hshared : site.sink.write site.disk path data with ⟨sink', disk', answer'⟩
      simp only [hown, hshared] at hanswer hmerged
      obtain rfl := hanswer
      simp only [Job.writes, hown, List.forall_mem_append] at hunused
      simp only [Lane.advance, Job.advance, hown, hshared] at hnext ⊢
      have hwrote := Site.Wrote.of_write (h.alike.root ▸ hroot) none path data hshared
      have halike := h.alike.wrote_right hwrote rfl (by simp) hunused.1
      exact ⟨trivial, h.replace hnext rfl halike hmerged⟩
  | print channel line next =>
      exact ⟨rfl, h.replace hnext rfl ⟨h.alike.archive, h.alike.root⟩ hmerges⟩

end Site.Shared

end ArchiveExport
