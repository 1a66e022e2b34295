import ArchiveExport.Script.Mode
import ArchiveExport.Text.Quoted

/-!
# Script directives

A script is read line by line. Once the blanks around it are gone, a line is empty, a comment, a
mode header in square brackets, or a pattern. A header is well formed when it is closed and each
of the names between its commas stands for a representation; the first malformed header ends the
script, and the lines before it stay in force.
-/

namespace ArchiveExport

/-- What a line of a script says. -/
inductive Directive where
  | comment (text : String) (line : Int)
  | mode (mode : Mode) (line : Int)
  | pattern (text : String) (line : Int)
  deriving DecidableEq

/-- What is wrong with a mode header. -/
inductive HeaderFault where
  | unclosed
  | emptyName
  | unknownName (name : String)
  deriving DecidableEq

/-- A malformed mode header: its text without blanks around it, its line number and the fault. -/
structure ScriptFault where
  fault : HeaderFault
  text : String
  line : Int
  deriving DecidableEq

namespace HeaderFault

/-- The fault in words. -/
def message : HeaderFault → String
  | .unclosed => "mode header is missing ']'"
  | .emptyName => "mode header has an empty mode name"
  | .unknownName name => s!"unknown export mode '{name}'"

end HeaderFault

namespace ScriptFault

/-- The fault with its place: the line number unless it is zero, and the line in quotes. -/
def message (f : ScriptFault) : String :=
  (if f.line = 0 then "" else s!"line {f.line}: ") ++ f.fault.message ++
    (if f.text = "" then "" else s!" ({Text.quote f.text})")

end ScriptFault

namespace Directive

/-- The names between the commas of a header's body, in the form that is looked up. -/
def headerNames (body : List Char) : List String :=
  (Text.splitOn ',' body).map fun piece => Mode.nameForm (String.ofList piece)

/-- The mode that the names of a header add up to. -/
def modeOfNames (names : List String) : Except HeaderFault Mode :=
  names.foldlM
    (fun mode name =>
      if name = "" then .error .emptyName
      else
        match Representation.ofName? name with
        | some representation => .ok (mode.add representation)
        | none => .error (.unknownName name))
    Mode.none

/-- The mode of a header that starts with an opening bracket. -/
def parseHeader (text : String) : Except HeaderFault Mode :=
  if text.toList.getLast? = some ']' then
    modeOfNames (headerNames (text.toList.drop 1).dropLast)
  else
    .error .unclosed

/-- The directive of a line, if it has one. -/
def parseLine (text : String) (line : Int) : Except ScriptFault (Option Directive) :=
  let text := Text.trim text
  match text.toList with
  | [] => .ok none
  | '#' :: _ => .ok (some (.comment text line))
  | '[' :: _ =>
    match parseHeader text with
    | .ok active => .ok (some (.mode active line))
    | .error fault => .error ⟨fault, text, line⟩
  | _ => .ok (some (.pattern text line))

/-- The directives of lines numbered from `line` on, up to the first malformed header, which is
returned beside them. -/
def parseFrom (line : Nat) : List String → List Directive × Option ScriptFault
  | [] => ([], none)
  | text :: rest =>
    match parseLine text line with
    | .error fault => ([], some fault)
    | .ok none => parseFrom (line + 1) rest
    | .ok (some directive) =>
      let (directives, fault) := parseFrom (line + 1) rest
      (directive :: directives, fault)

/-- The directives of a script up to its first malformed header, and that header's fault. -/
def parseLines (lines : List String) : List Directive × Option ScriptFault :=
  parseFrom 1 lines

end Directive

end ArchiveExport
