import ArchiveExport.Command.Launcher

/-!
# The reach of a command

Which texts can name what a command looks at: its arguments, the texts in its settings, and for a
comparison with the ledger the output folder of the run.
-/

namespace ArchiveExport.Command

/-- An argument, and what follows its first equals sign. -/
def textsOfArgument (argument : String) : List String :=
  argument :: (splitValue argument).2.toList

/-- The settings file that a command names. -/
def settingsFile? : Command → Option String
  | .export options => options.settings
  | .history options => options.settings
  | .verify options => options.settings
  | .list _ | .formats => none

/-- The run that a command compares with the disk. -/
def comparedRun? : Command → Option Int
  | .verify options => some options.run
  | .export _ | .list _ | .formats | .history _ => none

/-- The command that arguments of the launcher ask for. -/
def ofArguments? (arguments : List String) : Option Command :=
  (parse (arguments.filter (· ≠ "--cli"))).toOption.join

/-- The texts that name something as far as the arguments alone tell. -/
def firstReach (environment : Environment) (arguments : List String) : List String :=
  environment.settingsPath :: environment.ledgerPath :: arguments.flatMap textsOfArgument

/-- The settings that a command works with. -/
def settingsOn (machine : Machine) (disk : Disk) (command : Command) : Settings :=
  ((Settings.standard machine.environment command.settingsFile?).load machine.stack disk
    machine.working.place).1

/-- The texts that name something as far as the settings on a disk tell. -/
def secondReach (machine : Machine) (disk : Disk) (command : Command) : List String :=
  let values := (settingsOn machine disk command).values.values
  (values.filterMap fun value => value.narrow.text?).filter (· ≠ "")

/-- The output folder of the run that is compared, as far as the ledger on a disk tells. -/
def thirdReach (machine : Machine) (disk : Disk) (command : Command) : List String :=
  let place := ((settingsOn machine disk command).ledgerPath machine.environment).narrow
  match command.comparedRun?, place.text? with
  | some id, some path =>
    match (disk.read machine.working.place path).toOption.bind Ledger.ofData? with
    | some ledger => ((ledger.run? id).map (·.outputFolder)).toList
    | none => []
  | _, _ => []

end ArchiveExport.Command
