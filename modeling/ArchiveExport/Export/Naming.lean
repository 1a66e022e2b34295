import ArchiveExport.Settings.Value

/-!
# Names and forms of outputs

Which suffixes the outputs of an entry get, how documents are indented, and in which encoding
text files are read.
-/

namespace ArchiveExport

/-- The suffixes and forms of outputs. -/
structure Naming where
  structuredSuffix : Json := .text ".json"
  textSuffix : Json := .text ".txt"
  textureSuffix : Json := .text ".png"
  /-- The blanks for each level of a document; none puts it on one line. -/
  indent : Option Int := some 2
  textEncoding : Json := .text "utf-8"

namespace Naming

/-- The largest number of blanks that can be asked for. -/
def maxIndent : Int := Nat.pow 2 63 - 1

/-- The smallest number that can stand for no blanks. -/
def minIndent : Int := -Nat.pow 2 63

/-- How documents are written. -/
def layout (n : Naming) : Except Setting.Misuse Json.Layout :=
  match n.indent with
  | none => .ok ⟨none, false⟩
  | some blanks =>
    if blanks < minIndent ∨ maxIndent < blanks then .error .indentation
    else .ok ⟨some blanks.toNat, false⟩

/-- The octets of a document: its text and a line feed. -/
def document (n : Naming) (json : Json) : Except Setting.Misuse Bytes := do
  return Bytes.ofString (json.render (← n.layout) ++ "\n")

/-- The path of an image: a number of at least three digits stands in front of the suffix where
there is one. -/
def texturePath (n : Naming) (identifier : String) (frame : Option Nat) :
    Except Setting.Misuse String :=
  match frame with
  | none => Setting.appendTo identifier n.textureSuffix
  | some index =>
    let digits := toString index
    let zeros := String.ofList (List.replicate (3 - digits.length) '0')
    .ok (identifier ++ "." ++ zeros ++ digits ++ Setting.display n.textureSuffix)

end Naming

end ArchiveExport
