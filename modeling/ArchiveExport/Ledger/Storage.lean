import ArchiveExport.Disk.Access
import ArchiveExport.Json.Access
import ArchiveExport.Json.Printer
import ArchiveExport.Json.Reader
import ArchiveExport.Ledger.Basic
import ArchiveExport.Text.Utf8

/-!
# Ledger files

A ledger is kept in a file as a JSON document. A file without data holds the ledger without runs.
-/

namespace ArchiveExport.Ledger

/-- The document of a run. -/
def Run.document (r : Run) : Json :=
  .object [("id", .nat r.id), ("script", .text r.script), ("archive", .text r.archive),
    ("output_dir", .text r.outputFolder), ("started", .nat r.started.seconds),
    ("finished", .orNull (fun m => .nat m.seconds) r.finished),
    ("success", .bool r.result.success), ("aborted", .bool r.result.aborted),
    ("exported", .nat r.result.exported), ("unsupported", .nat r.result.unsupported),
    ("failed", .nat r.result.failed), ("misses", .nat r.result.misses)]

/-- The run of a document. -/
def Run.ofDocument? (json : Json) : Option Run := do
  return {
    id := ← json.countAt? "id"
    script := ← json.textAt? "script"
    archive := ← json.textAt? "archive"
    outputFolder := ← json.textAt? "output_dir"
    started := ⟨← json.countAt? "started"⟩
    finished := (json.countAt? "finished").map Moment.mk
    result := {
      success := ← json.flagAt? "success"
      aborted := ← json.flagAt? "aborted"
      exported := ← json.countAt? "exported"
      unsupported := ← json.countAt? "unsupported"
      failed := ← json.countAt? "failed"
      misses := ← json.countAt? "misses" } }

/-- The document of a record. -/
def Record.document (r : Record) : Json :=
  .object [("id", .nat r.id), ("run_id", .integer r.run), ("identifier", .text r.identifier),
    ("pattern", .text r.pattern), ("status", .text r.status), ("outputs", .text r.outputs),
    ("digest", .orNull .text r.digest), ("cause", .orNull .text r.cause),
    ("created", .nat r.created.seconds)]

/-- The record of a document. -/
def Record.ofDocument? (json : Json) : Option Record := do
  return {
    id := ← json.countAt? "id"
    run := ← json.integerAt? "run_id"
    identifier := ← json.textAt? "identifier"
    pattern := ← json.textAt? "pattern"
    status := ← json.textAt? "status"
    outputs := ← json.textAt? "outputs"
    digest := json.textAt? "digest"
    cause := json.textAt? "cause"
    created := ⟨← json.countAt? "created"⟩ }

/-- The document of a ledger. -/
def document (l : Ledger) : Json :=
  .object [("runs", .arrayOf Run.document l.runs), ("records", .arrayOf Record.document l.records)]

/-- The ledger of a document. -/
def ofDocument? (json : Json) : Option Ledger := do
  return {
    runs := ← (← json.member? "runs").items.mapM Run.ofDocument?
    records := ← (← json.member? "records").items.mapM Record.ofDocument? }

/-- The data of a ledger's file. -/
def data (l : Ledger) : Bytes :=
  Bytes.ofString (l.document.compact ++ "\n")

/-- The ledger that a file's data hold. -/
def ofData? (bs : Bytes) : Option Ledger := do
  if bs.isEmpty then
    return empty
  let cs ← (Text.Utf8.decode bs).toOption
  ofDocument? (← (Json.readList cs).toOption)

/-- Why a ledger's file cannot be opened. -/
inductive OpenFault where
  | disk (fault : Disk.Fault)
  | ledger (fault : Fault)
  deriving DecidableEq

/-- Open the ledger that a text names. Where there is none, a new one is written, and the folders
above it are made. -/
def openFile (disk : Disk) (working : AbsolutePath) (text : String) :
    Disk × Except OpenFault Ledger :=
  let place := AbsolutePath.ofText working text
  match disk.makeFolders working.place (Path.folder place.text) with
  | (disk, .error fault) => (disk, .error (.disk fault))
  | (disk, .ok ()) =>
    match disk.look working.place text with
    | .ok (.file bs) =>
      match ofData? bs with
      | some ledger => (disk, .ok ledger)
      | none => (disk, .error (.ledger .notLedger))
    | .ok .folder => (disk, .error (.ledger .unopened))
    | .error _ =>
      match disk.write working.place text empty.data with
      | .ok disk => (disk, .ok empty)
      | .error _ => (disk, .error (.ledger .unopened))

/-- Keep a ledger in the file that a text names. -/
def save (l : Ledger) (disk : Disk) (working : AbsolutePath) (text : String) : Disk :=
  ((disk.write working.place text l.data).toOption).getD disk

end ArchiveExport.Ledger
