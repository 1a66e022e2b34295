import ArchiveExport.Export.Job

/-!
# What a job writes

The writes of a job at a site are those that the output folder accepts, in order. Exactly their
paths are added to the paths of the output folder.
-/

namespace ArchiveExport

namespace Sink

/-- The paths written stay, and the path of a write that is accepted is added. -/
theorem written_write (sink : Sink) (disk : Disk) (path : String) (data : Bytes) :
    (sink.write disk path data).1.root = sink.root ∧
      (sink.write disk path data).1.written = sink.written ++
        if (sink.write disk path data).2.2.isOk then [path] else [] := by
  cases hresolve : sink.resolve path with
  | error fault => simp [write_of_resolve_eq_error hresolve, Except.isOk, Except.toBool]
  | ok target =>
      rw [write_of_resolve_eq_ok hresolve]
      rcases hfolders : disk.makeFolders [] (Path.folder target.text) with ⟨grown, fault | _⟩
      · simp [Except.isOk, Except.toBool]
      · cases hwritten : grown.write [] target.text data with
        | error fault => simp [hwritten, Except.isOk, Except.toBool]
        | ok last => simp [hwritten, Except.isOk, Except.toBool]

end Sink

namespace Job

variable {α β : Type}

/-- What a job gets written at a site: paths with their data, in order. -/
def writes : Job α → Site → List (String × Bytes)
  | .done _, _ => []
  | .read key next, site =>
    let (answer, archive) := site.archive.read site.disk key
    (next answer).writes { site with archive }
  | .contains key next, site => (next (site.archive.contains site.disk key)).writes site
  | .write path data next, site =>
    let (sink, disk, answer) := site.sink.write site.disk path data
    (if answer.isOk then [(path, data)] else []) ++
      (next (answer.map fun _ => ())).writes { site with sink, disk }
  | .print channel line next, site =>
    next.writes { site with console := site.console.printLine channel line }

/-- What holds of jobs that are done, and of a job if it holds behind its first access, holds. -/
theorem advance_induction {motive : Job α → Site → Prop}
    (done : ∀ value site, motive (.done value) site)
    (advance : ∀ job site, motive (job.advance site).1 (job.advance site).2 → motive job site)
    (job : Job α) (site : Site) : motive job site := by
  induction job generalizing site with
  | done value => exact done value site
  | read key next ih => exact advance _ _ (ih _ _)
  | contains key next ih => exact advance _ _ (ih _ _)
  | write path data next ih =>
      apply advance
      simp only [Job.advance]
      exact ih _ _
  | print channel line next ih => exact advance _ _ (ih _)

theorem mem_writes_of_mem_advance (job : Job α) (site : Site) {w : String × Bytes}
    (h : w ∈ (job.advance site).1.writes (job.advance site).2) : w ∈ job.writes site := by
  cases job with
  | done value => exact h
  | read key next => exact h
  | contains key next => exact h
  | write path data next =>
      simp only [advance, writes] at h ⊢
      exact List.mem_append_right _ h
  | print channel line next => exact h

/-- The second job writes behind what the first one has written. -/
theorem writes_bind (job : Job α) (f : α → Job β) (site : Site) :
    (job.bind f).writes site =
      job.writes site ++ (f (job.run site).1).writes (job.run site).2 := by
  induction job generalizing site with
  | done value => rfl
  | read key next ih => exact ih _ _
  | contains key next ih => exact ih _ _
  | write path data next ih =>
      simp only [bind, writes, run, ih, List.append_assoc]
  | print channel line next ih => exact ih _

/-- The output folder lists what a job writes. -/
theorem written_run (job : Job α) (site : Site) :
    (job.run site).2.sink.root = site.sink.root ∧
      (job.run site).2.sink.written = site.sink.written ++ (job.writes site).map Prod.fst := by
  induction job generalizing site with
  | done value => exact ⟨rfl, (List.append_nil _).symm⟩
  | read key next ih => exact ih _ _
  | contains key next ih => exact ih _ _
  | write path data next ih =>
      have hwrite := Sink.written_write site.sink site.disk path data
      simp only [run, writes]
      generalize site.sink.write site.disk path data = accessed at hwrite ⊢
      obtain ⟨sink, disk, answer⟩ := accessed
      obtain ⟨hroot, hwritten⟩ := ih (answer.map fun _ => ()) { site with sink, disk }
      refine ⟨hroot.trans hwrite.1, ?_⟩
      rw [hwritten, hwrite.2, List.map_append, List.append_assoc]
      cases answer with
      | error fault => rfl
      | ok target => rfl
  | print channel line next ih => exact ih _

/-! ### Laws -/

theorem bind_done (job : Job α) : job.bind .done = job := by
  induction job with
  | done value => rfl
  | read key next ih => simp only [bind, ih]
  | contains key next ih => simp only [bind, ih]
  | write path data next ih => simp only [bind, ih]
  | print channel line next ih => simp only [bind, ih]

theorem bind_assoc {γ : Type} (job : Job α) (f : α → Job β) (g : β → Job γ) :
    (job.bind f).bind g = job.bind fun value => (f value).bind g := by
  induction job with
  | done value => rfl
  | read key next ih => simp only [bind, ih]
  | contains key next ih => simp only [bind, ih]
  | write path data next ih => simp only [bind, ih]
  | print channel line next ih => simp only [bind, ih]

instance : LawfulMonad Job :=
  LawfulMonad.mk' Job (fun job => bind_done job) (fun _ _ => rfl) bind_assoc

end Job

end ArchiveExport
