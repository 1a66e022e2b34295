import ArchiveExport.Export.Dispatch
import ArchiveExport.Export.Tally
import ArchiveExport.Report.Reporter

/-!
# Export sessions

A session is what runs work on and leave behind: the site, the reporter, the ledger where there is
one, the active mode, and the tally and ledger number of the current run.
-/

namespace ArchiveExport

/-- What runs work on. -/
structure Session where
  site : Site
  reporter : Reporter := {}
  ledger : Option Ledger := none
  /-- The time that the ledger notes. -/
  now : Moment
  mode : Mode := .standard
  tally : Tally := {}
  /-- The number of the current run. -/
  run : Nat := 0

namespace Session

/-- Tell the reporter a message. -/
def tell (s : Session) (level : Level) (text : String) : Session :=
  let (reporter, disk, console) := s.reporter.tell s.site.disk s.site.console ⟨level, text⟩
  { s with reporter, site := { s.site with disk, console } }

/-- Show how far a pattern is. -/
def showProgress (s : Session) (current total : Nat) (name : String) : Session :=
  let console := s.reporter.showProgress s.site.console current total name
  { s with site := { s.site with console } }

/-- Begin a run in a mode. -/
def start (s : Session) (script label : String) (mode : Mode) : Session :=
  let s := { s with mode, tally := {} }
  match s.ledger with
  | none => s
  | some ledger =>
    let (ledger, run) := ledger.start s.now script label s.site.sink.root.text
    { s with ledger := some ledger, run }

/-- Record something about an entry of the current run. -/
def record (s : Session) (note : Ledger.Note) : Session :=
  { s with ledger := s.ledger.map (·.record s.now { note with run := s.run }) }

/-- Record a pattern that names nothing. -/
def recordMiss (s : Session) (pattern : String) : Session :=
  s.record { run := s.run, identifier := pattern, pattern, status := "miss" }

/-- Record an outcome of a pattern. -/
def recordOutcome (s : Session) (pattern : String) (o : Outcome) : Session :=
  s.record {
    run := s.run
    identifier := o.identifier
    pattern
    status := o.status.label
    outputs := o.outputs
    digest := o.digest
    cause := o.cause }

/-- End a run: its summary is told, and the ledger notes the result. -/
def finish (s : Session) : Session :=
  let s := s.tell .info s.tally.summaryLine
  match s.ledger with
  | none => s
  | some ledger =>
    { s with ledger := some ((ledger.finish s.now s.run s.tally.result).toOption.getD ledger) }

/-- Do a job at the session's site. -/
def perform {α : Type} (s : Session) (job : Job α) : α × Session :=
  let (value, site) := job.run s.site
  (value, { s with site })

end Session

end ArchiveExport
