import ArchiveExport.Command.Action
import ArchiveExport.Command.Basic
import ArchiveExport.Export.Exporter

/-!
# Exporting

An export loads the settings, opens the archive, the ledger and the log, carries out its task, and
keeps the ledger even where the task breaks off. What failed and what named nothing is told at the
end once more.
-/

namespace ArchiveExport.Command

/-- What the ledger calls an export without a script. -/
def patternsLabel : String := "<patterns>"

/-- Carry out a task. A script without a name starts a run but has nothing to carry out. -/
def Task.perform (task : Task) (e : Exporter) (working : Path) (s : Session) :
    Session × Except Fault Tally :=
  match task with
  | .script "" => (s.start patternsLabel e.label e.mode, .error (.setting (.parts "NoneType")))
  | .script path =>
    match s.site.disk.read working path with
    | .error fault => (s, .error (.disk fault))
    | .ok data =>
      let (s, result) := e.runFile path data s
      (s, result.mapError .charset)
  | .patterns texts =>
    let (s, tally) := e.runPatterns texts e.mode s
    (s, .ok tally)

namespace ExportOptions

/-- The settings with what the arguments say in place of what they hold. -/
def change (o : ExportOptions) (stack : Stack) (settings : Settings) :
    Except Setting.Misuse Settings := do
  let settings ←
    match o.workers.filter (· ≠ 0) with
    | some n => settings.setWorkers (.integer n)
    | none => pure settings
  let settings ←
    match o.modes with
    | some names => settings.setDefaultModes stack (Settings.listed names)
    | none => pure settings
  return if o.debug then settings.setFlag "debug_mode" (.bool true) else settings

/-- Whether messages are printed in colour. -/
def usesColors (o : ExportOptions) (settings : Settings) : Bool :=
  !o.noColor && settings.usesColors

/-- The output folder: that of the arguments, else that of the settings, else the user's own. No
folder has halves of surrogate pairs in its name. -/
def outputFolder (o : ExportOptions) (settings : Settings) (environment : Environment) : Json :=
  let folder := (settings.value "output_path").narrow
  match o.output.filter (· ≠ "") with
  | some folder => .text folder
  | none => if Setting.isTrue folder then folder else .text environment.outputFolder

/-- The script that is asked for but is no file. -/
def missingScript (o : ExportOptions) : Action (Option String) :=
  match o.task with
  | .script path => do
    if path = "" ∨ (← Action.isFile path) then
      return none
    return some path
  | .patterns _ => return none

/-- Open the ledger where runs are recorded. -/
def openLedger (o : ExportOptions) (settings : Settings) :
    Action (Option (String × Ledger)) := do
  if o.ledger ∨ settings.ledgerEnabled then
    let path ← Action.pathOf (settings.ledgerPath (← read).environment).narrow
    return some (path, ← Action.openLedger path)
  return none

/-- Open the log where one is set, and start printing. -/
def startPrinter (o : ExportOptions) (settings : Settings) : Action Printer := do
  let log := (settings.value "log_file").narrow
  let path ← if Setting.isTrue log then some <$> Action.pathOf log else pure none
  let w ← MonadState.get
  let (disk, console, result) :=
    Printer.start (o.usesColors settings) o.progress path (← read).working.place w.disk w.console
  set { w with disk, console }
  Action.get .disk result

/-- Carry out the task on an open archive. -/
def runTask (o : ExportOptions) (settings : Settings) (output : Json) (archive : Archive)
    (ledger : Option Ledger) (printer : Printer) :
    Action (Option Ledger × Except Fault Tally) := do
  Action.printHeading s!"Export to {Setting.display output}"
  let sources := Text.join ", " o.archives
  Action.printLine s!"Archive: {sources} ({archive.keys.length} entries)"
  let machine ← read
  let root ← Action.pathOf output
  let exporter ← Action.get .setting <|
    Exporter.ofSettings settings machine.codecs .standard archive.normalize
      (Text.join ";" o.archives)
  let w ← MonadState.get
  let sink : Sink := { root := .ofText machine.working root }
  let session : Session := {
    site := ⟨archive, w.disk, sink, w.console⟩
    reporter := { printer := some printer }
    ledger
    now := machine.now
    mode := exporter.mode }
  let (session, result) := o.task.perform exporter machine.working.place session
  set { w with disk := session.site.disk, console := session.site.console }
  return (session.ledger, result)

/-- Tell how an export ended. -/
def conclude (tally : Tally) : Action Exit := do
  if tally.aborted then
    return .aborted
  if !tally.success then
    tally.failed.forM fun identifier => Action.printWarning s!"Failed: {identifier}"
    tally.misses.forM fun pattern => Action.printWarning s!"No match: {pattern}"
    return .incomplete
  Action.onConsole (·.printDone tally.summary)
  return .done

/-- Export. -/
def perform (o : ExportOptions) : Action Exit := do
  let some settings ← Action.loadSettings o.settings
    | return .refused
  if !o.usesColors settings then
    Action.onConsole (·.withoutColor)
  let settings ← Action.get .setting (o.change (← read).stack settings)
  if let some path ← o.missingScript then
    Action.printError s!"Script not found: {path}"
    return .refused
  let cacheMegabytes ← Action.get .setting settings.cacheMegabytes
  let some archive ← Action.openArchive o.archives (Cache.octets cacheMegabytes)
    | return .refused
  let ledger ← o.openLedger settings
  let printer ← o.startPrinter settings
  let output := o.outputFolder settings (← read).environment
  let (kept, result) ← o.runTask settings output archive (ledger.map Prod.snd) printer
  if let (some (path, _), some kept) := (ledger, kept) then
    Action.saveLedger path kept
  conclude (← Action.get id result)

end ExportOptions

end ArchiveExport.Command
