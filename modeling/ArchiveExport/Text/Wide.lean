import ArchiveExport.Text.Lowercase
import ArchiveExport.Text.Quoted

/-!
# Texts of code points

An escape can name half of a surrogate pair where no other half makes it a character. A text that
was read from escapes is therefore a list of code points, some of which may be such halves. Halves
have no lower case and no printed form, and no encoding has octets for them.
-/

namespace ArchiveExport.Text

/-- A code point: a character, or half of a surrogate pair. -/
inductive Point where
  | char (c : Char)
  | half (n : Fin 0x800)
  deriving DecidableEq

namespace Point

/-- The code of a code point. -/
def code : Point → Nat
  | .char c => c.toNat
  | .half n => 0xD800 + n

/-- The code point of sixteen bits. -/
def ofUnit (n : Nat) : Point :=
  if h : 0xD800 ≤ n ∧ n < 0xE000 then .half ⟨n - 0xD800, by omega⟩ else .char (Char.ofNat n)

/-- Whether this is the first half of a pair. -/
def isHigh : Point → Bool
  | .char _ => false
  | .half n => n < 0x400

/-- Whether this is the second half of a pair. -/
def isLow : Point → Bool
  | .char _ => false
  | .half n => 0x400 ≤ n

/-- The character, if it is one. -/
def char? : Point → Option Char
  | .char c => some c
  | .half _ => none

/-- The character, or U+FFFD in place of a half. -/
def toChar : Point → Char
  | .char c => c
  | .half _ => Char.ofNat 0xFFFD

/-- How a code point is written between quotes. -/
def escape (delimiter : Char) : Point → List Char
  | .char c => escapeChar delimiter c
  | .half n => escapeCode (0xD800 + n)

end Point

/-- Code points in quotes. -/
def quotePoints (points : List Point) : String :=
  let delimiter := delimiterFor (points.map Point.toChar)
  String.ofList (delimiter :: points.flatMap (Point.escape delimiter) ++ [delimiter])

/-- Lower code points, where `run` holds the characters since the last half, the last one first. A
half ends what the case of a character looks at. -/
def lowerPoints : List Char → List Point → List Point
  | run, [] => (lowerFrom [] run.reverse).map .char
  | run, .char c :: points => lowerPoints (c :: run) points
  | run, .half n :: points =>
    (lowerFrom [] run.reverse).map .char ++ .half n :: lowerPoints [] points

/-- A kind of text that is spelled by code points. -/
class Spelled (τ : Type) where
  /-- The code points of a text. -/
  points : τ → List Point
  /-- The text of code points, or one close to it if there is none. -/
  ofPoints : List Point → τ
  ofPoints_points (text : τ) : ofPoints (points text) = text

/-- A text of code points. -/
structure Wide where
  points : List Point
  deriving DecidableEq

namespace Wide

/-- The text of characters. -/
def ofString (text : String) : Wide := ⟨text.toList.map .char⟩

instance : Coe String Wide := ⟨ofString⟩

/-- The text, if it has no halves. -/
def toString? (text : Wide) : Option String :=
  (text.points.mapM Point.char?).map String.ofList

/-- The text with U+FFFD in place of each half. -/
def narrow (text : Wide) : String :=
  String.ofList (text.points.map Point.toChar)

/-- Texts are ordered by their codes. -/
instance : LE Wide := ⟨fun a b => ¬ b.points.map Point.code < a.points.map Point.code⟩

instance : DecidableLE Wide :=
  fun a b => inferInstanceAs (Decidable (¬ b.points.map Point.code < a.points.map Point.code))

/-- The lower case of a text. -/
def lower (text : Wide) : Wide := ⟨lowerPoints [] text.points⟩

/-- The text without a character at its start. -/
def dropLeading (c : Char) (text : Wide) : Wide :=
  ⟨text.points.dropWhile (· = .char c)⟩

instance : Spelled Wide where
  points := Wide.points
  ofPoints := Wide.mk
  ofPoints_points _ := rfl

end Wide

instance : Spelled String where
  points text := text.toList.map .char
  ofPoints points := String.ofList (points.map Point.toChar)
  ofPoints_points text := by
    rw [List.map_map]
    exact (congrArg String.ofList (List.map_id text.toList)).trans String.ofList_toList

end ArchiveExport.Text
