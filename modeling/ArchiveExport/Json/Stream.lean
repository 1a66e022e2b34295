import ArchiveExport.Json.Printer
import ArchiveExport.Json.Reader

/-!
# Writing JSON piece by piece

A document can be written to a file while it is gone through. Some values have no text: an integer
with more digits than are written, and brackets inside of more others than there is room for.
Writing breaks off there, and what has been written before stays.
-/

namespace ArchiveExport.Json

open Text (Spelled)

/-- Why writing breaks off. -/
inductive WriteFault where
  | numeralTooLong
  | tooDeep
  deriving DecidableEq, Repr

/-- The message of a fault. -/
def WriteFault.message : WriteFault → String
  | .numeralTooLong =>
    "Exceeds the limit (4300 digits) for integer string conversion; " ++
      "use sys.set_int_max_str_digits() to increase the limit"
  | .tooDeep => "maximum recursion depth exceeded while calling a Python object"

/-- Whether an integer has more digits than are written. -/
def isTooLong (n : Int) : Bool :=
  maxDigits < (Nat.toDigits 10 n.natAbs).length

/-- What is written, and why writing breaks off behind it. -/
structure Written where
  text : List Char
  fault : Option WriteFault := none

/-- Go on with what is written next, unless writing has broken off. -/
def Written.andThen (first second : Written) : Written :=
  match first.fault with
  | some _ => first
  | none => { second with text := first.text ++ second.text }

/-- Pieces one behind the other. -/
def Written.join (pieces : List Written) : Written :=
  pieces.foldr .andThen ⟨[], none⟩

variable {τ : Type} [Spelled τ] [LE τ] [DecidableLE τ]

mutual

/-- Write a value at a depth behind what stands in front of it, with room for some nested brackets.
An array is begun before its items are looked at; any other value is written at once. -/
def stream (layout : Layout) : Nat → Nat → List Char → Json τ → Written
  | _, _, before, .null => ⟨before ++ "null".toList, none⟩
  | _, _, before, .bool true => ⟨before ++ "true".toList, none⟩
  | _, _, before, .bool false => ⟨before ++ "false".toList, none⟩
  | _, _, before, .integer n =>
    if isTooLong n then ⟨[], some .numeralTooLong⟩ else ⟨before ++ writeInteger n, none⟩
  | _, _, before, .real x => ⟨before ++ writeReal x, none⟩
  | _, _, before, .text s => ⟨before ++ writeText layout s, none⟩
  | 0, _, before, .array _ => ⟨before, some .tooDeep⟩
  | 0, _, before, .object _ => ⟨before, some .tooDeep⟩
  | room + 1, depth, before, .array xs =>
    let opening := '[' :: layout.newline (depth + 1)
    let written := Written.join (streamItems layout room (depth + 1) opening xs)
    let closing := if xs.isEmpty then ['[', ']'] else layout.newline depth ++ [']']
    (Written.mk before none).andThen (written.andThen ⟨closing, none⟩)
  | room + 1, depth, before, .object ms =>
    let written := sortMembers (streamMembers layout room (depth + 1) ms)
    let pieces := written.map fun m =>
      (Written.mk (writeText layout m.1 ++ [':', ' ']) none).andThen m.2
    let separated := List.intersperse (Written.mk (layout.separator (depth + 1)) none) pieces
    let opening := if ms.isEmpty then ['\x7b'] else '\x7b' :: layout.newline (depth + 1)
    let closing := if ms.isEmpty then ['\x7d'] else layout.newline depth ++ ['\x7d']
    (Written.mk (before ++ opening) none).andThen
      ((Written.join separated).andThen ⟨closing, none⟩)

/-- Write the items of an array, each behind what stands in front of it. -/
def streamItems (layout : Layout) (room depth : Nat) (before : List Char) :
    List (Json τ) → List Written
  | [] => []
  | x :: xs =>
    stream layout room depth before x ::
      streamItems layout room depth (layout.separator depth) xs

/-- Write the values of the members of an object. -/
def streamMembers (layout : Layout) (room depth : Nat) :
    List (τ × Json τ) → List (τ × Written)
  | [] => []
  | (name, x) :: ms => (name, stream layout room depth [] x) :: streamMembers layout room depth ms

end

end ArchiveExport.Json
