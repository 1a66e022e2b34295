import ArchiveExport.Export.Outcome
import ArchiveExport.Ledger.Basic

/-!
# Tallies

What a run has come to so far: how many entries were exported or unsupported, which failed, which
patterns named nothing, and the message of the script fault that ended the run, if one did.
-/

namespace ArchiveExport

/-- The count of a run. -/
structure Tally where
  success : Bool := true
  exported : Nat := 0
  unsupported : Nat := 0
  /-- The identifiers of failed entries. -/
  failed : List String := []
  /-- The patterns that named nothing. -/
  misses : List String := []
  aborted : Bool := false
  fatal : Option String := none
  /-- All outcomes, in order. -/
  outcomes : List Outcome := []

namespace Tally

/-- Count an outcome. -/
def count (t : Tally) (o : Outcome) : Tally :=
  let t := { t with outcomes := t.outcomes ++ [o] }
  match o.status with
  | .success => { t with exported := t.exported + 1 }
  | .unsupported => { t with unsupported := t.unsupported + 1 }
  | .failed => { t with failed := t.failed ++ [o.identifier], success := false }

/-- Count a pattern that names nothing. -/
def miss (t : Tally) (pattern : String) : Tally :=
  { t with misses := t.misses ++ [pattern], success := false }

/-- Break off for a fault. -/
def abort (t : Tally) (message : String) : Tally :=
  { t with aborted := true, fatal := some message, success := false }

/-- The counts in words. -/
def summary (t : Tally) : String :=
  s!"{t.exported} exported, {t.unsupported} unsupported, {t.failed.length} failed, " ++
    s!"{t.misses.length} unmatched patterns"

/-- How the run ended, in words. -/
def state (t : Tally) : String :=
  if t.aborted then "aborted" else if t.success then "done" else "done with errors"

/-- How the run ended, and the counts. -/
def summaryLine (t : Tally) : String :=
  s!"Export {t.state}: {t.summary}"

/-- What the ledger keeps of a tally. -/
def result (t : Tally) : Ledger.Result where
  success := t.success
  aborted := t.aborted
  exported := t.exported
  unsupported := t.unsupported
  failed := t.failed.length
  misses := t.misses.length

end Tally

end ArchiveExport
