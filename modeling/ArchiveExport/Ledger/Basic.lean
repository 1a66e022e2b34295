import ArchiveExport.Moment
import ArchiveExport.Text.Basic

/-!
# The export ledger

The ledger lists the runs of the exporter and, for each entry that a run exported or missed, a
record. Both are numbered from one in the order in which they were made, and nothing is ever taken
out: a run is only finished, and a record stays as it is.
-/

namespace ArchiveExport

namespace Ledger

/-- How a run ended. -/
structure Result where
  success : Bool := false
  aborted : Bool := false
  exported : Nat := 0
  unsupported : Nat := 0
  failed : Nat := 0
  misses : Nat := 0
  deriving DecidableEq

/-- A run: what was run, on what, where to, when and how it ended. -/
structure Run where
  id : Nat
  script : String
  archive : String
  outputFolder : String
  started : Moment
  finished : Option Moment := none
  result : Result := {}
  deriving DecidableEq

/-- The run in short. -/
def Run.label (r : Run) : String :=
  let success := if r.result.success then "True" else "False"
  s!"<ExportRun(id={r.id}, script='{r.script}', success={success})>"

/-- What is recorded about an entry. -/
structure Note where
  run : Int
  identifier : String
  pattern : String
  status : String
  outputs : List String := []
  digest : Option String := none
  cause : Option String := none
  deriving DecidableEq

/-- A record: what is known about an entry, the paths of its outputs one to a line. -/
structure Record where
  id : Nat
  run : Int
  identifier : String
  pattern : String
  status : String
  outputs : String
  digest : Option String
  cause : Option String
  created : Moment
  deriving DecidableEq

/-- The record in short. -/
def Record.label (r : Record) : String :=
  s!"<ExportRecord(run_id={r.run}, identifier='{r.identifier}', status='{r.status}')>"

/-- Why the ledger refuses something. -/
inductive Fault where
  | unknownRun (id : Int)
  /-- A row lacks the value of a column. -/
  | missing (table column : String)
  /-- A number that does not fit into 64 bits. -/
  | tooLarge
  /-- A file that is no ledger. -/
  | notLedger
  /-- A place that cannot hold a ledger. -/
  | unopened
  deriving DecidableEq

/-- The fault in words. -/
def Fault.message : Fault → String
  | .unknownRun id => s!"Unknown export run: {id}"
  | .missing table column =>
    s!"(sqlite3.IntegrityError) NOT NULL constraint failed: {table}.{column}"
  | .tooLarge => "Python int too large to convert to SQLite INTEGER"
  | .notLedger => "(sqlite3.DatabaseError) file is not a database"
  | .unopened => "(sqlite3.OperationalError) unable to open database file"

/-- The value of a column that every row of a table needs. -/
def required {α : Type} (table column : String) : Option α → Except Fault α
  | some value => .ok value
  | none => .error (.missing table column)

/-- The first number that does not fit into 64 bits. -/
def bound : Int := Nat.pow 2 63

/-- A number from outside, if it fits into 64 bits. -/
def storable (n : Int) : Except Fault Int :=
  if -bound ≤ n ∧ n < bound then .ok n else .error .tooLarge

end Ledger

/-- Runs and records, each in the order in which they were made. -/
structure Ledger where
  runs : List Ledger.Run := []
  records : List Ledger.Record := []
  deriving DecidableEq

namespace Ledger

/-- The ledger without runs. -/
def empty : Ledger := {}

/-- The number that follows all given ones. -/
def nextId (ids : List Nat) : Nat :=
  ids.foldl max 0 + 1

/-- Add a run, and tell its number. -/
def start (l : Ledger) (now : Moment) (script archive outputFolder : String) : Ledger × Nat :=
  let id := nextId (l.runs.map Run.id)
  ({ l with runs := l.runs ++ [{ id, script, archive, outputFolder, started := now }] }, id)

/-- The record of a note. -/
def Record.ofNote (id : Nat) (now : Moment) (n : Note) : Record where
  id := id
  run := n.run
  identifier := n.identifier
  pattern := n.pattern
  status := n.status
  outputs := Text.join "\n" n.outputs
  digest := n.digest
  cause := n.cause
  created := now

/-- Add a record. -/
def record (l : Ledger) (now : Moment) (n : Note) : Ledger :=
  { l with records := l.records ++ [.ofNote (nextId (l.records.map Record.id)) now n] }

/-- The run of a number. -/
def run? (l : Ledger) (id : Int) : Option Run :=
  l.runs.find? fun r => (r.id : Int) = id

/-- Note how a run ended. -/
def finish (l : Ledger) (now : Moment) (id : Int) (result : Result) : Except Fault Ledger :=
  match l.run? id with
  | none => .error (.unknownRun id)
  | some _ =>
    .ok { l with
      runs := l.runs.map fun r =>
        if (r.id : Int) = id then { r with finished := some now, result } else r }

/-- The latest runs, the last one first; a negative limit is none. -/
def recent (l : Ledger) (limit : Int) : List Run :=
  if limit < 0 then l.runs.reverse else l.runs.reverse.take limit.toNat

/-- The records of a run. -/
def recordsOf (l : Ledger) (id : Int) : List Record :=
  l.records.filter fun r => r.run = id

/-- The paths of a record's outputs. -/
def Record.paths (r : Record) : List String :=
  (Text.split '\n' r.outputs).filter (· ≠ "")

end Ledger

end ArchiveExport
