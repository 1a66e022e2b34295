import ArchiveExport.Console

/-!
# Messages

What a run has to say comes as messages of a level. Warnings and errors are printed on the error
channel, all other messages on the output channel.
-/

namespace ArchiveExport

/-- How grave a message is. A message of any other level is shown like information. -/
inductive Level where
  | info
  | success
  | warning
  | error
  | other
  deriving DecidableEq

namespace Level

/-- The level of a name. -/
def ofName : String → Level
  | "info" => .info
  | "success" => .success
  | "warning" => .warning
  | "error" => .error
  | _ => .other

/-- The name of a level. -/
def name : Level → String
  | .info => "info"
  | .success => "success"
  | .warning => "warning"
  | .error => "error"
  | .other => "other"

/-- What stands in front of messages of a level. -/
def label : Level → String
  | .info | .other => "[INFO]"
  | .success => "[OK]"
  | .warning => "[WARN]"
  | .error => "[ERROR]"

/-- The channel for messages of a level. -/
def channel : Level → Channel
  | .warning | .error => .error
  | .info | .success | .other => .output

/-- The styles of messages of a level. -/
def styles : Level → List Style
  | .info => [.blue]
  | .success => [.green]
  | .warning => [.yellow]
  | .error => [.red]
  | .other => []

end Level

/-- A text of a level. -/
structure Message where
  level : Level
  text : String
  deriving DecidableEq

namespace Message

/-- The message as a line without styles. -/
def line (m : Message) : String :=
  m.level.label ++ " " ++ m.text

end Message

end ArchiveExport
