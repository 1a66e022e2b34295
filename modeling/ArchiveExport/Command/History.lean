import ArchiveExport.Command.Action
import ArchiveExport.Command.Basic
import ArchiveExport.Disk.Digest

/-!
# Looking back

What the ledger knows about earlier exports, and whether their outputs are still as they were
written.
-/

namespace ArchiveExport.Command

namespace HistoryOptions

/-- A row of a listing of runs: number, start, result, counts and script. -/
def row (id started result : String) (counts : List String) (script : String) : String :=
  Text.join " " ([Text.padRight 5 id, Text.padRight 20 started, Text.padRight 8 result] ++
    counts.map (Text.padLeft 6)) ++ "  " ++ script

/-- How a run ended, in a word. -/
def ending (result : Ledger.Result) : String :=
  if result.aborted then "aborted" else if result.success then "ok" else "errors"

/-- The row of a run. -/
def runRow (r : Ledger.Run) : String :=
  let counts := [r.result.exported, r.result.unsupported, r.result.failed, r.result.misses]
  row (toString r.id) r.started.text (ending r.result) (counts.map toString) r.script

/-- A row of a listing of records: status, digest and identifier. -/
def recordRow (status digest identifier : String) : String :=
  Text.padRight 12 status ++ " " ++ Text.padRight 34 digest ++ " " ++ identifier

/-- The lines of a record: its row, and the cause of a failure. -/
def recordLines (r : Ledger.Record) : List String :=
  let digest := (r.digest.filter (· ≠ "")).getD "-"
  let cause := (r.cause.filter (· ≠ "")).toList
  recordRow r.status digest r.identifier :: cause.map (Text.padRight 12 "" ++ " " ++ ·)

/-- List the records of a run. -/
def listRecords (ledger : Ledger) (id : Int) : Action Unit := do
  Action.printHeading s!"Export Run {id}"
  match ledger.recordsOf (← Action.get .ledger (Ledger.storable id)) with
  | [] => Action.printWarning s!"No records for run {id}"
  | records =>
    Action.printLine (recordRow "Status" "Digest" "Identifier")
    Action.printRule 80
    Action.printLines (records.flatMap recordLines)

/-- List the latest runs. -/
def listRuns (ledger : Ledger) (limit : Int) : Action Unit := do
  Action.printHeading "Export History"
  match ledger.recent (← Action.get .ledger (Ledger.storable limit)) with
  | [] => Action.printWarning "No export runs recorded"
  | runs =>
    Action.printLine (row "ID" "Started" "Result" ["Exp", "Uns", "Fail", "Miss"] "Script")
    Action.printRule 90
    Action.printLines (runs.map runRow)

/-- Look at the ledger, if there is one. -/
def perform (o : HistoryOptions) : Action Exit := do
  let some settings ← Action.loadSettings o.settings
    | return .refused
  let place := (settings.ledgerPath (← read).environment).narrow
  if !(← Action.namesFile place) then
    Action.printWarning s!"No export ledger at {Setting.display place}"
    return .done
  let ledger ← Action.openLedger (← Action.pathOf place)
  match o.run.filter (· ≠ 0) with
  | some id => listRecords ledger id
  | none => listRuns ledger o.limit
  return .done

end HistoryOptions

namespace VerifyOptions

/-- The output of a run under a relative path. -/
def outputText (r : Ledger.Run) (path : String) : String :=
  (Text.split '/' path).foldl Path.join r.outputFolder

/-- Whether the outputs of a record are as they were written. -/
def isIntact (disk : Disk) (working : Path) (r : Ledger.Run) (record : Ledger.Record) : Bool :=
  Checksum.sameDigest (disk.digest? working (record.paths.map (outputText r))) record.digest

/-- Compare the outputs of a run's records with what is on the disk. Records without a digest have
nothing to compare. -/
def compare (r : Ledger.Run) (records : List Ledger.Record) : Action Exit := do
  let disk := (← MonadState.get).disk
  let working := (← read).working.place
  let checked := records.filter fun record => (record.digest.filter (· ≠ "")).isSome
  let changed := checked.filter fun record => !isIntact disk working r record
  changed.forM fun record => Action.printWarning s!"Changed or missing: {record.identifier}"
  if changed.isEmpty then
    Action.onConsole (·.printDone s!"{checked.length} entries match the ledger")
    return .done
  Action.printError s!"{changed.length} of {checked.length} entries differ from the ledger"
  return .incomplete

/-- Compare the outputs of a run with the ledger. -/
def perform (o : VerifyOptions) : Action Exit := do
  let some settings ← Action.loadSettings o.settings
    | return .refused
  let place := (settings.ledgerPath (← read).environment).narrow
  if !(← Action.namesFile place) then
    Action.printError s!"No export ledger at {Setting.display place}"
    return .refused
  let ledger ← Action.openLedger (← Action.pathOf place)
  match ledger.run? (← Action.get .ledger (Ledger.storable o.run)) with
  | none =>
    Action.printError s!"Unknown export run: {o.run}"
    return .refused
  | some r =>
    Action.printHeading s!"Verify Run {r.id} ({r.outputFolder})"
    compare r (ledger.recordsOf r.id)

end VerifyOptions

end ArchiveExport.Command
