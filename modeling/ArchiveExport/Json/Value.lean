import ArchiveExport.Number.Binary64
import ArchiveExport.Text.Wide

/-!
# JSON values

The values that JSON text can hold. Numbers written with a point or an exponent are real numbers,
all others integers; the members of an object keep the order in which they were first named. The
texts of documents are made of characters; what settings hold may also have texts of code points.
-/

namespace ArchiveExport

/-- A JSON value, its texts being of a kind. -/
inductive Json (τ : Type := String) where
  | null
  | bool (value : Bool)
  | integer (value : Int)
  | real (value : Binary64)
  | text (value : τ)
  | array (items : List (Json τ))
  | object (members : List (τ × Json τ))
  deriving Inhabited

namespace Json

variable {τ : Type}

/-- The members of an object, none for other values. -/
def members : Json τ → List (τ × Json τ)
  | .object ms => ms
  | _ => []

/-- The items of an array, none for other values. -/
def items : Json τ → List (Json τ)
  | .array xs => xs
  | _ => []

/-- The member of an object under a name. -/
def member? (json : Json) (name : String) : Option Json :=
  (json.members.find? fun m => m.1 = name).map Prod.snd

/-- The value of a text. -/
def text? : Json τ → Option τ
  | .text s => some s
  | _ => none

/-- The value of an integer. -/
def integer? : Json τ → Option Int
  | .integer n => some n
  | _ => none

/-- The value of a truth value. -/
def bool? : Json τ → Option Bool
  | .bool b => some b
  | _ => none

/-- The array of the images of a list. -/
def arrayOf {α : Type} (f : α → Json τ) (xs : List α) : Json τ :=
  .array (xs.map f)

/-- The value of an optional one, or null. -/
def orNull {α : Type} (f : α → Json τ) : Option α → Json τ
  | some x => f x
  | none => .null

/-- The integer of a natural number. -/
def nat (n : Nat) : Json τ := .integer n

/-! ### Texts of another kind -/

mutual

/-- The value with other texts in place of its texts. -/
def mapTexts {υ : Type} (f : τ → υ) : Json τ → Json υ
  | .null => .null
  | .bool b => .bool b
  | .integer n => .integer n
  | .real x => .real x
  | .text s => .text (f s)
  | .array xs => .array (mapItemTexts f xs)
  | .object ms => .object (mapMemberTexts f ms)

/-- Put other texts into the items of an array. -/
def mapItemTexts {υ : Type} (f : τ → υ) : List (Json τ) → List (Json υ)
  | [] => []
  | x :: xs => x.mapTexts f :: mapItemTexts f xs

/-- Put other texts into the members of an object. -/
def mapMemberTexts {υ : Type} (f : τ → υ) : List (τ × Json τ) → List (υ × Json υ)
  | [] => []
  | (name, x) :: ms => (f name, x.mapTexts f) :: mapMemberTexts f ms

end

/-- The value with texts of code points. -/
def widen (json : Json) : Json Text.Wide :=
  json.mapTexts .ofString

/-- The value with texts of characters, U+FFFD in place of each half of a pair. -/
def narrow (json : Json Text.Wide) : Json :=
  json.mapTexts Text.Wide.narrow

end Json

end ArchiveExport
