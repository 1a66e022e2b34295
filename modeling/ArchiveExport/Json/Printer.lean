import ArchiveExport.Bytes.Basic
import ArchiveExport.Json.Value
import ArchiveExport.Text.Quoted

/-!
# JSON text

Objects are written with their members sorted by name. A document is written on one line, or with
each item on a line of its own behind an indentation; an empty array or object takes no lines. Real
numbers are written as the shortest numeral that reads back; the three values that are no numerals
have names of their own. Halves of surrogate pairs are always written as escapes.
-/

namespace ArchiveExport.Json

open Text (Point Spelled)

/-- How a document is laid out. -/
structure Layout where
  /-- The blanks for each level, or none for a document on one line. -/
  indent : Option Nat := none
  /-- Whether characters outside of ASCII are written as escapes. -/
  asciiOnly : Bool := false

/-- The escape for one unit of UTF-16. -/
def unitEscape (n : Nat) : List Char :=
  '\\' :: 'u' :: Text.hexDigits 4 n

/-- How a character of a text is written. -/
def writeChar (layout : Layout) (c : Char) : List Char :=
  let n := c.toNat
  if c = '"' ∨ c = '\\' then ['\\', c]
  else if n < 0x20 then
    match n with
    | 0x08 => ['\\', 'b']
    | 0x09 => ['\\', 't']
    | 0x0A => ['\\', 'n']
    | 0x0C => ['\\', 'f']
    | 0x0D => ['\\', 'r']
    | _ => unitEscape n
  else if !layout.asciiOnly || n < 0x7F then [c]
  else if n < 0x10000 then unitEscape n
  else unitEscape (0xD800 + (n - 0x10000) / 1024) ++ unitEscape (0xDC00 + (n - 0x10000) % 1024)

/-- How a code point of a text is written. -/
def writePoint (layout : Layout) : Point → List Char
  | .char c => writeChar layout c
  | .half n => unitEscape (0xD800 + n)

variable {τ : Type} [Spelled τ]

/-- A text in quotes. -/
def writeText (layout : Layout) (text : τ) : List Char :=
  '"' :: (Spelled.points text).flatMap (writePoint layout) ++ ['"']

/-- The numeral of an integer. -/
def writeInteger (n : Int) : List Char :=
  if n < 0 then '-' :: Nat.toDigits 10 n.natAbs else Nat.toDigits 10 n.natAbs

/-- The numeral of a real number, or the name of a value that has none. -/
def writeReal : Binary64 → List Char
  | .nan => "NaN".toList
  | .infinity false => "Infinity".toList
  | .infinity true => "-Infinity".toList
  | .finite negative s e => Binary64.finiteText negative s e

/-- The start of a new line at a depth. -/
def Layout.newline (layout : Layout) (depth : Nat) : List Char :=
  match layout.indent with
  | none => []
  | some width => '\n' :: List.replicate (width * depth) ' '

/-- What stands between two items at a depth. -/
def Layout.separator (layout : Layout) (depth : Nat) : List Char :=
  match layout.indent with
  | none => [',', ' ']
  | some _ => ',' :: layout.newline depth

/-- Pieces between brackets, at the depth of the brackets. -/
def Layout.enclose (layout : Layout) (depth : Nat) (first last : Char)
    (pieces : List (List Char)) : List Char :=
  if pieces.isEmpty then [first, last]
  else
    first :: layout.newline (depth + 1) ++
      (List.intersperse (layout.separator (depth + 1)) pieces).flatten ++
      layout.newline depth ++ [last]

variable [LE τ] [DecidableLE τ]

/-- Members in the order of their names. -/
def sortMembers {κ α : Type} [LE κ] [DecidableLE κ] (members : List (κ × α)) : List (κ × α) :=
  members.mergeSort fun a b => decide (a.1 ≤ b.1)

mutual

/-- The text of a value at a depth. -/
def write (layout : Layout) (depth : Nat) : Json τ → List Char
  | .null => "null".toList
  | .bool true => "true".toList
  | .bool false => "false".toList
  | .integer n => writeInteger n
  | .real x => writeReal x
  | .text s => writeText layout s
  | .array xs => layout.enclose depth '[' ']' (writeItems layout (depth + 1) xs)
  | .object ms =>
    let written := sortMembers (writeMembers layout (depth + 1) ms)
    layout.enclose depth '\x7b' '\x7d'
      (written.map fun m => writeText layout m.1 ++ ':' :: ' ' :: m.2)

/-- The texts of the items of an array. -/
def writeItems (layout : Layout) (depth : Nat) : List (Json τ) → List (List Char)
  | [] => []
  | x :: xs => write layout depth x :: writeItems layout depth xs

/-- The names of the members of an object with the texts of their values. -/
def writeMembers (layout : Layout) (depth : Nat) :
    List (τ × Json τ) → List (τ × List Char)
  | [] => []
  | (name, x) :: ms => (name, write layout depth x) :: writeMembers layout depth ms

end

/-- The text of a document. -/
def render (layout : Layout) (json : Json τ) : String :=
  String.ofList (write layout 0 json)

/-- The text of a document on one line. -/
def compact (json : Json τ) : String :=
  render {} json

end ArchiveExport.Json
