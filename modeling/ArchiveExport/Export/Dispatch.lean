import ArchiveExport.Entry.Resolution
import ArchiveExport.Export.Step
import ArchiveExport.Script.Mode

/-!
# Dispatching entries

An entry is written in the representations of a mode: first its text or document, then its images,
then its members, in this order. A failed step keeps no later step from being tried.
-/

namespace ArchiveExport

/-- What decides how entries are written. -/
structure Dispatcher where
  codecs : Codecs
  table : DispatchTable := .standard
  naming : Naming := {}
  /-- Whether failures are traced on the error channel. -/
  debug : Bool := false
  /-- The spelling of keys under which the archive finds its entries. -/
  normalize : String → String

namespace Dispatcher

/-- The kind of output that a handler writes. -/
def kindOf : Handler → OutputKind
  | .text => .text
  | _ => .structured

/-- The steps of an entry's export. -/
def steps (d : Dispatcher) (entry : Entry) (mode : Mode) : List (OutputKind × Step Unit) :=
  let identifier := entry.identifier
  let handler := d.table.handlerFor identifier
  let document :=
    if mode.structured then
      [(kindOf handler, Step.produce d.codecs d.normalize d.naming handler identifier)]
    else []
  let images :=
    match mode.texture, d.table.rendererFor? identifier with
    | true, some renderer =>
      [(OutputKind.texture, Step.texture d.codecs d.naming renderer identifier)]
    | _, _ => []
  let members := if mode.raw then entry.members.map fun m => (OutputKind.raw, Step.copy m) else []
  document ++ images ++ members

/-- Do all steps of an entry's export, noting what was written and what failed. -/
def runSteps (debug : Bool) : List (OutputKind × Step Unit) → StateT Progress Job Unit
  | [] => pure ()
  | (kind, step) :: steps => do
    Step.attempt debug kind step
    runSteps debug steps

/-- Export an entry. -/
def dispatch (d : Dispatcher) (entry : Entry) (mode : Mode) : Job Outcome := do
  let ((), progress) ← (runSteps d.debug (d.steps entry mode)).run {}
  return .ofProgress entry.identifier progress

end Dispatcher

end ArchiveExport
