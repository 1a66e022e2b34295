import ArchiveExport.Json.Value
import ArchiveExport.Script.Directive

/-!
# Documents of scripts

Modes, directives and script faults as trees of plain values.
-/

namespace ArchiveExport

/-- The document of a mode. -/
def Mode.document (m : Mode) : Json :=
  .object [("raw", .bool m.raw), ("structured", .bool m.structured), ("texture", .bool m.texture),
    ("names", .arrayOf .text m.names), ("str", .text m.header)]

/-- The document of a directive. -/
def Directive.document : Directive → Json
  | .comment text line =>
    .object [("kind", .text "Comment"), ("line", .integer line), ("text", .text text)]
  | .pattern text line =>
    .object [("kind", .text "Pattern"), ("line", .integer line), ("text", .text text)]
  | .mode active line =>
    .object [("kind", .text "ModeChange"), ("line", .integer line), ("mode", active.document)]

/-- The document of a script fault. -/
def ScriptFault.document (f : ScriptFault) : Json :=
  .object [("line", .text f.text), ("line_number", .integer f.line),
    ("reason", .text f.fault.message), ("message", .text f.message)]

end ArchiveExport
