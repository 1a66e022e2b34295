import ArchiveExport.Command.Options

/-!
# Commands

What the program can be asked to do, and how the arguments of its command line ask for it.
-/

namespace ArchiveExport

namespace Command

/-- What an export carries out. -/
inductive Task where
  | script (path : String)
  | patterns (patterns : List String)
  deriving DecidableEq

/-- The arguments of an export. -/
structure ExportOptions where
  archives : List String
  task : Task
  output : Option String := none
  modes : Option (List String) := none
  workers : Option Int := none
  settings : Option String := none
  noColor : Bool := false
  ledger : Bool := false
  progress : Bool := false
  debug : Bool := false
  deriving DecidableEq

/-- The arguments of a listing. -/
structure ListOptions where
  archives : List String
  pattern : Option String := none
  verbose : Bool := false
  limit : Int := 100
  noColor : Bool := false
  deriving DecidableEq

/-- The arguments of a look at the ledger. -/
structure HistoryOptions where
  limit : Int := 20
  run : Option Int := none
  settings : Option String := none
  deriving DecidableEq

/-- The arguments of a comparison with the ledger. -/
structure VerifyOptions where
  run : Int
  settings : Option String := none
  deriving DecidableEq

end Command

/-- What the program can be asked to do. -/
inductive Command where
  | export (options : Command.ExportOptions)
  | list (options : Command.ListOptions)
  | formats
  | history (options : Command.HistoryOptions)
  | verify (options : Command.VerifyOptions)
  deriving DecidableEq

namespace Command

/-- The option that asks for help. -/
def helpSpec : OptionSpec := ⟨"--help", ['h'], .help, []⟩

/-- The options of an export. -/
def exportSpecs : List OptionSpec :=
  [helpSpec, ⟨"--archive", [], .text, []⟩, ⟨"--script", [], .text, ["--pattern"]⟩,
    ⟨"--pattern", [], .text, ["--script"]⟩, ⟨"--output", [], .text, []⟩,
    ⟨"--mode", [], .modes, []⟩, ⟨"--workers", [], .integer, []⟩, ⟨"--config", [], .text, []⟩,
    ⟨"--no-color", [], .flag, []⟩, ⟨"--ledger", [], .flag, []⟩, ⟨"--progress", [], .flag, []⟩,
    ⟨"--debug", [], .flag, []⟩]

/-- The options of a listing. -/
def listSpecs : List OptionSpec :=
  [helpSpec, ⟨"--archive", [], .text, []⟩, ⟨"--pattern", [], .text, []⟩,
    ⟨"--verbose", ['v'], .flag, []⟩, ⟨"--limit", [], .integer, []⟩, ⟨"--no-color", [], .flag, []⟩]

/-- The options of a look at the ledger. -/
def historySpecs : List OptionSpec :=
  [helpSpec, ⟨"--limit", [], .integer, []⟩, ⟨"--run", [], .integer, []⟩,
    ⟨"--config", [], .text, []⟩]

/-- The options of a comparison with the ledger. -/
def verifySpecs : List OptionSpec :=
  [helpSpec, ⟨"--run", [], .integer, []⟩, ⟨"--config", [], .text, []⟩]

/-- The archives that were named, at least one. -/
def archivesOf (t : Taken) : Except UsageFault (List String) :=
  if t.has "--archive" then .ok (t.texts "--archive") else .error (.missing "--archive")

/-- What was asked to be exported. -/
def taskOf (t : Taken) : Except UsageFault Task :=
  match t.text? "--script" with
  | some path => .ok (.script path)
  | none =>
    if t.has "--pattern" then .ok (.patterns (t.texts "--pattern"))
    else .error (.missing "--script --pattern")

/-- The command of a name and its options, with the arguments that are not recognized. -/
def ofNamed (name : String) (arguments : List String) :
    Except UsageFault (Command × List String) := do
  match name with
  | "export" =>
    let t ← take exportSpecs arguments
    let archives ← archivesOf t
    let options : ExportOptions := {
      archives
      task := ← taskOf t
      output := t.text? "--output"
      modes := t.names? "--mode"
      workers := t.integer? "--workers"
      settings := t.text? "--config"
      noColor := t.has "--no-color"
      ledger := t.has "--ledger"
      progress := t.has "--progress"
      debug := t.has "--debug" }
    return (.export options, t.rest)
  | "list" =>
    let t ← take listSpecs arguments
    let options : ListOptions := {
      archives := ← archivesOf t
      pattern := t.text? "--pattern"
      verbose := t.has "--verbose"
      limit := (t.integer? "--limit").getD 100
      noColor := t.has "--no-color" }
    return (.list options, t.rest)
  | "formats" =>
    let t ← take [helpSpec] arguments
    return (.formats, t.rest)
  | "history" =>
    let t ← take historySpecs arguments
    let options : HistoryOptions := {
      limit := (t.integer? "--limit").getD 20
      run := t.integer? "--run"
      settings := t.text? "--config" }
    return (.history options, t.rest)
  | "verify" =>
    let t ← take verifySpecs arguments
    match t.integer? "--run" with
    | some run => return (.verify ⟨run, t.text? "--config"⟩, t.rest)
    | none => throw (.missing "--run")
  | name => throw (.unknownCommand name)

/-- Refuse arguments that are not recognized. -/
def refuseRest (rest : List String) : Except UsageFault Unit :=
  if rest.isEmpty then .ok () else .error (.unrecognized rest)

/-- The command that arguments ask for, if they ask for one. What stands in front of its name is
taken for options of the program, and `rest` holds those that it does not know. -/
def parseFrom (rest : List String) : List String → Except UsageFault (Option Command)
  | [] => do
    refuseRest rest
    return none
  | argument :: arguments => do
    match ← classify [helpSpec] argument with
    | .plain =>
      let (command, more) ← ofNamed argument arguments
      refuseRest (rest ++ more)
      return some command
    | .separator => throw (.unknownCommand argument)
    | .unknown => parseFrom (rest ++ [argument]) arguments
    | .option spec attached =>
      if attached.isSome then
        throw (.unexpectedValue spec.name)
      throw .help
    | .letters first more =>
      let _ ← optionsOfLetters [helpSpec] first more
      throw .help

/-- The command that arguments ask for. -/
def parse (arguments : List String) : Except UsageFault (Option Command) :=
  parseFrom [] arguments

/-- How the program is used. -/
def usage : String :=
  "usage: asset-exporter [-h] (export | list | formats | history | verify) ...\n\n" ++
  "export  --archive FILE_OR_FOLDER (--script FILE | --pattern PATTERN)\n" ++
  "        [--output FOLDER] [--mode MODES] [--workers N] [--config FILE]\n" ++
  "        [--no-color] [--ledger] [--progress] [--debug]\n" ++
  "list    --archive FILE_OR_FOLDER [--pattern PATTERN] [--verbose] [--limit N] [--no-color]\n" ++
  "formats\n" ++
  "history [--limit N] [--run N] [--config FILE]\n" ++
  "verify  --run N [--config FILE]\n"

end Command

end ArchiveExport
