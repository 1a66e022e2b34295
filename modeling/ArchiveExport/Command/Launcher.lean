import ArchiveExport.Command.Export
import ArchiveExport.Command.History
import ArchiveExport.Command.Listing

/-!
# The launcher

The launcher answers a few questions about the program itself and hands all other arguments to the
command line. A fault that breaks a command off is shown with its trace.
-/

namespace ArchiveExport.Command

/-- Carry out a command. -/
def perform : Command → Action Exit
  | .export options => options.perform
  | .list options => options.perform
  | .formats => listFormats
  | .history options => options.perform
  | .verify options => options.perform

/-- Carry out the command that arguments ask for. Arguments that ask for none are answered by how
the program is used. -/
def performArguments (arguments : List String) : Action Exit := do
  match parse arguments with
  | .ok (some command) => command.perform
  | .ok none =>
    Action.onConsole (·.print .output usage)
    return .refused
  | .error .help =>
    Action.onConsole (·.print .output usage)
    return .done
  | .error fault =>
    Action.onConsole (·.print .error s!"{usage}asset-exporter: error: {fault.message}\n")
    return .refused

namespace Launcher

/-- The version of the program. -/
def version : String := "1.0.0"

/-- What the program does, in a line. -/
def description : String := "Script-driven export of GRF and folder archives"

/-- The lines of a banner around some texts of its width. -/
def frame (texts : List String) : List String :=
  let rule := String.ofList (List.replicate 63 '═')
  ["╔" ++ rule ++ "╗"] ++ texts.map (fun text => "║" ++ text ++ "║") ++ ["╚" ++ rule ++ "╝"]

/-- The banner. -/
def banner : List String :=
  let row (indent : Nat) (text : String) : String :=
    Text.padRight 63 (Text.padRight indent "" ++ text)
  let texts := [row 0 "", row 22 "A S S E T   E X P O R T E R", row 0 "", row 9 description,
    row 24 s!"Version {version}", row 0 ""]
  [""] ++ (frame texts).map ("    " ++ ·) ++ ["    "]

/-- How the launcher is used. -/
def help : List String :=
  banner ++
    ["", "Usage: python main.py [options] <command> [command options]", "", "Options:",
      "  --help, -h   Show this help message", "  --version    Show version information",
      "  --check      Check dependencies and exit", "  --paths      Show data paths and exit", "",
      "Commands:", "  export       Run an export script against archives",
      "  list         List archive entries",
      "  formats      Show how each extension is exported",
      "  history      Show recorded export runs", "",
      "Run 'python main.py <command> --help' for command options."]

/-- Print where the program keeps what, and make the folder of the user's data. -/
def printPaths : Action Unit := do
  let machine ← read
  let environment := machine.environment
  Action.printLines
    ["Asset Exporter Paths:", "  Frozen:         False", s!"  Base Path:      {machine.home}"]
  let w ← MonadState.get
  let (disk, made) := w.disk.makeFolders machine.working.place environment.dataFolder
  set { w with disk }
  Action.get .disk made
  Action.printLines
    [s!"  User Data:      {environment.dataFolder}",
      s!"  Config:         {environment.settingsPath}",
      s!"  Ledger:         {environment.ledgerPath}",
      s!"  Output:         {environment.outputFolder}"]

/-- Carry out the command that arguments ask for, and show the fault that breaks it off. -/
def guarded (arguments : List String) : Action Exit :=
  tryCatch (performArguments arguments) fun fault => do
    Action.printLine s!"\n[FATAL ERROR] {fault.message}"
    Action.onConsole (·.printLine .error (Console.traceOf fault.message))
    return .refused

/-- Launch the program with some arguments. -/
def launch (arguments : List String) : Action Exit := do
  if "--version" ∈ arguments then
    Action.printLines [s!"Asset Exporter v{version}", description]
    return .done
  if "--paths" ∈ arguments then
    printPaths
    return .done
  if "--check" ∈ arguments then
    Action.printLines
      ["Checking dependencies...", "  Frozen: False", s!"  Python: {(← read).runtime}",
        "[OK] All core dependencies installed"]
    return .done
  if arguments.head?.all (· ∈ ["--help", "-h"]) then
    Action.printLines help
    return .done
  guarded (arguments.filter (· ≠ "--cli"))

end Launcher

end ArchiveExport.Command
