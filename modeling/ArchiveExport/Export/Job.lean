import ArchiveExport.Archive.Basic
import ArchiveExport.Console
import ArchiveExport.Export.Sink

/-!
# Jobs

Exporting an entry is a sequence of single accesses: reading an entry of the archive, asking
whether there is one, writing an output, printing. A job says which access comes next and how it
goes on after each answer; running it at a site answers the accesses one after the other.
-/

namespace ArchiveExport

/-- What an export works on: the archive, the disk, the output folder and the console. -/
structure Site where
  archive : Archive
  disk : Disk
  sink : Sink
  console : Console

/-- A sequence of accesses with a result. -/
inductive Job (α : Type) : Type where
  | done (value : α)
  | read (key : String) (next : Except Archive.Fault Bytes → Job α)
  | contains (key : String) (next : Except Archive.Fault Bool → Job α)
  | write (path : String) (data : Bytes) (next : Except Sink.Fault Unit → Job α)
  | print (channel : Channel) (line : String) (next : Job α)

namespace Job

variable {α β : Type}

/-- Go on with a second job behind a first one. -/
def bind : Job α → (α → Job β) → Job β
  | .done value, f => f value
  | .read key next, f => .read key fun answer => (next answer).bind f
  | .contains key next, f => .contains key fun answer => (next answer).bind f
  | .write path data next, f => .write path data fun answer => (next answer).bind f
  | .print channel line next, f => .print channel line (next.bind f)

instance : Monad Job where
  pure := .done
  bind := bind

/-- Answer the first access of a job at a site; a job that is done stays as it is. -/
def advance : Job α → Site → Job α × Site
  | .done value, site => (.done value, site)
  | .read key next, site =>
    let (answer, archive) := site.archive.read site.disk key
    (next answer, { site with archive })
  | .contains key next, site => (next (site.archive.contains site.disk key), site)
  | .write path data next, site =>
    let (sink, disk, answer) := site.sink.write site.disk path data
    (next (answer.map fun _ => ()), { site with sink, disk })
  | .print channel line next, site =>
    (next, { site with console := site.console.printLine channel line })

/-- Answer all accesses of a job at a site, one after the other. -/
def run : Job α → Site → α × Site
  | .done value, site => (value, site)
  | .read key next, site =>
    let (answer, archive) := site.archive.read site.disk key
    (next answer).run { site with archive }
  | .contains key next, site => (next (site.archive.contains site.disk key)).run site
  | .write path data next, site =>
    let (sink, disk, answer) := site.sink.write site.disk path data
    (next (answer.map fun _ => ())).run { site with sink, disk }
  | .print channel line next, site =>
    next.run { site with console := site.console.printLine channel line }

/-- The second job starts at the site where the first one ended. -/
theorem run_bind (job : Job α) (f : α → Job β) (site : Site) :
    (job.bind f).run site = (f (job.run site).1).run (job.run site).2 := by
  induction job generalizing site with
  | done value => simp only [bind, run]
  | read key next ih => simp only [bind, run, ih]
  | contains key next ih => simp only [bind, run, ih]
  | write path data next ih => simp only [bind, run, ih]
  | print channel line next ih => simp only [bind, run, ih]

/-- A job can be run access by access. -/
theorem run_advance (job : Job α) (site : Site) :
    (job.advance site).1.run (job.advance site).2 = job.run site := by
  cases job <;> simp only [advance, run]

end Job

end ArchiveExport
