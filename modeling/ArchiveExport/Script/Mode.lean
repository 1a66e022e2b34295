import ArchiveExport.Text.Basic
import ArchiveExport.Text.Blank
import ArchiveExport.Text.Lowercase

/-!
# Output modes

A mode is the set of representations in which entries are written: the untouched bytes, the
structured or text document, the images. Modes are named in script headers and in the settings.
-/

namespace ArchiveExport

/-- The active output representations. -/
structure Mode where
  raw : Bool := false
  structured : Bool := true
  texture : Bool := false
  deriving DecidableEq, Inhabited

/-- One output representation. -/
inductive Representation where
  | raw
  | structured
  | texture
  deriving DecidableEq

namespace Representation

/-- The representation that a lower-case name without blanks stands for. -/
def ofName? : String → Option Representation
  | "raw" => some .raw
  | "json" => some .structured
  | "text" => some .structured
  | "texture" => some .texture
  | _ => none

end Representation

namespace Mode

/-- The mode without representations. -/
def none : Mode := ⟨false, false, false⟩

/-- The mode in force where nothing else is said: structured documents only. -/
def standard : Mode := ⟨false, true, false⟩

/-- The mode with one more representation. -/
def add (mode : Mode) : Representation → Mode
  | .raw => { mode with raw := true }
  | .structured => { mode with structured := true }
  | .texture => { mode with texture := true }

/-- The names of the active representations, in the order in which headers list them. -/
def names (mode : Mode) : List String :=
  (if mode.raw then ["raw"] else []) ++ (if mode.structured then ["json"] else []) ++
    (if mode.texture then ["texture"] else [])

/-- The mode as a header. -/
def header (mode : Mode) : String :=
  "[" ++ Text.join ", " mode.names ++ "]"

/-- The form of a name that decides which representation it stands for. -/
def nameForm (name : String) : String :=
  Text.lower (Text.trim name)

/-- The mode of the named representations, or the first name that stands for none. -/
def ofNames (names : List String) : Except String Mode :=
  names.foldlM
    (fun mode name =>
      match Representation.ofName? (nameForm name) with
      | some representation => .ok (mode.add representation)
      | Option.none => .error name)
    none

/-- The complaint about a name that stands for no representation. -/
def unknownName (name : String) : String :=
  s!"Unknown export mode: {name}"

end Mode

end ArchiveExport
