import ArchiveExport.Archive.Basic
import ArchiveExport.Console
import ArchiveExport.Export.Codecs
import ArchiveExport.Ledger.Storage
import ArchiveExport.Settings.Storage

/-!
# Actions

An action of the program works on a disk and a console on a given machine. It ends with a value, or
breaks off with a fault; what it did before that stays done.
-/

namespace ArchiveExport.Command

/-- The machine that the program runs on. -/
structure Machine where
  environment : Environment
  /-- The working folder. -/
  working : AbsolutePath
  now : Moment
  /-- The folder of the program. -/
  home : String := ""
  /-- The version of what the program runs on. -/
  runtime : String := ""
  stack : Stack := {}
  codecs : Codecs

/-- What actions work on. -/
structure Workspace where
  disk : Disk
  console : Console := {}

/-- Why an action breaks off. -/
inductive Fault where
  | setting (misuse : Setting.Misuse)
  | settings (fault : Settings.LoadFault)
  | disk (fault : Disk.Fault)
  | archive (fault : Archive.Fault)
  | ledger (fault : Ledger.Fault)
  | charset (fault : Text.Charset.Fault)
  deriving DecidableEq

/-- The fault in words. -/
def Fault.message : Fault → String
  | .setting misuse => misuse.message
  | .settings fault => fault.message
  | .disk fault => fault.message
  | .archive fault => fault.message
  | .ledger fault => fault.message
  | .charset fault => fault.message

/-- How the program ends. -/
inductive Exit where
  | done
  /-- The arguments, the script or an archive cannot be used. -/
  | refused
  /-- Entries failed, patterns named nothing, or entries differ from the ledger. -/
  | incomplete
  /-- The script has a malformed header. -/
  | aborted
  deriving DecidableEq

/-- The number that tells how the program ended. -/
def Exit.code : Exit → Nat
  | .done => 0
  | .refused => 1
  | .incomplete => 2
  | .aborted => 3

/-- A part of what the program does. -/
abbrev Action (α : Type) : Type := ReaderT Machine (ExceptT Fault (StateM Workspace)) α

namespace Action

variable {α : Type}

/-- Do an action on a workspace. -/
def start (action : Action α) (machine : Machine) (workspace : Workspace) :
    Except Fault α × Workspace :=
  (action machine).run.run workspace

/-- Change the console. -/
def onConsole (f : Console → Console) : Action Unit :=
  modify fun w => { w with console := f w.console }

/-- Print a line. -/
def printLine (line : String) : Action Unit :=
  onConsole (·.printLine .output line)

/-- Go on with a result, or break off. -/
def get {ε : Type} (cause : ε → Fault) : Except ε α → Action α
  | .ok value => pure value
  | .error fault => throw (cause fault)

/-- Print lines. -/
def printLines (lines : List String) : Action Unit :=
  lines.forM printLine

/-- Print a rule. -/
def printRule (width : Nat) : Action Unit :=
  printLine (String.ofList (List.replicate width '-'))

/-- Print a heading. -/
def printHeading (text : String) : Action Unit :=
  onConsole (·.printHeading text)

/-- Print a warning. -/
def printWarning (text : String) : Action Unit :=
  onConsole (·.printWarning text)

/-- Print an error. -/
def printError (text : String) : Action Unit :=
  onConsole (·.printError text)

/-- Whether a text names a file. -/
def isFile (text : String) : Action Bool := do
  return (← MonadState.get).disk.isFile (← read).working.place text

/-- The settings at a path, or the user's own; none if there is no file at the path. -/
def loadSettings (path : Option String) : Action (Option Settings) := do
  let named := path.filter (· ≠ "")
  if let some path := named then
    if !(← isFile path) then
      printError s!"Config file not found: {path}"
      return none
  let machine ← read
  let (settings, notices, result) :=
    (Settings.standard machine.environment named).load machine.stack (← MonadState.get).disk
      machine.working.place
  notices.forM fun notice => printLine notice.message
  let _ ← get .settings result
  return some settings

/-- Open the archive at some paths. An archive that cannot be opened is an error that is told. -/
def openArchive (paths : List String) (cacheLimit : Int) : Action (Option Archive) := do
  let (notices, result) :=
    Archive.openAll (← MonadState.get).disk (← read).working paths cacheLimit
  notices.forM fun notice => printLine notice.message
  match result with
  | .ok archive => return some archive
  | .error (.gone fault) => throw (.disk fault)
  | .error fault =>
    printError fault.message
    return none

/-- The path under which a ledger is kept in memory only. -/
def memoryPath : String := ":memory:"

/-- Open the ledger at a path. -/
def openLedger (path : String) : Action Ledger := do
  if path = memoryPath then
    return .empty
  let (disk, result) := Ledger.openFile (← MonadState.get).disk (← read).working path
  modify fun w => { w with disk }
  match result with
  | .ok ledger => return ledger
  | .error (.disk fault) => throw (.disk fault)
  | .error (.ledger fault) => throw (.ledger fault)

/-- Keep a ledger at a path. -/
def saveLedger (path : String) (ledger : Ledger) : Action Unit := do
  if path ≠ memoryPath then
    let working := (← read).working
    modify fun w => { w with disk := ledger.save w.disk working path }

/-- The value as a path. -/
def pathOf : Json → Action String
  | .text path => pure path
  | value => throw (.setting (.path (Setting.kindName value)))

/-- Whether a value names a file. -/
def namesFile : Json → Action Bool
  | .text path => isFile path
  | .integer _ | .bool _ => pure false
  | value => throw (.setting (.file (Setting.kindName value)))

end Action

end ArchiveExport.Command
