import ArchiveExport.Text.Basic
import ArchiveExport.Text.Blank

/-!
# Numerals

An integer is read from the decimal digits of any script, in front of them at most one sign;
single underscores may stand between digits, and blanks around the whole. It may be written with a
comma before each three digits.
-/

namespace ArchiveExport.Text

/-- The zeros of the decimal digit sets of the scripts, in ascending order; the digits one to nine
of a set follow its zero. -/
def decimalZeros : List Nat :=
  [
    0x30, 0x660, 0x6F0, 0x7C0, 0x966, 0x9E6, 0xA66, 0xAE6, 0xB66, 0xBE6,
    0xC66, 0xCE6, 0xD66, 0xDE6, 0xE50, 0xED0, 0xF20, 0x1040, 0x1090, 0x17E0,
    0x1810, 0x1946, 0x19D0, 0x1A80, 0x1A90, 0x1B50, 0x1BB0, 0x1C40, 0x1C50, 0xA620,
    0xA8D0, 0xA900, 0xA9D0, 0xA9F0, 0xAA50, 0xABF0, 0xFF10, 0x104A0, 0x10D30, 0x11066,
    0x110F0, 0x11136, 0x111D0, 0x112F0, 0x11450, 0x114D0, 0x11650, 0x116C0, 0x11730, 0x118E0,
    0x11950, 0x11C50, 0x11D50, 0x11DA0, 0x16A60, 0x16AC0, 0x16B50, 0x1D7CE, 0x1D7D8, 0x1D7E2,
    0x1D7EC, 0x1D7F6, 0x1E140, 0x1E2F0, 0x1E950, 0x1FBF0
  ]

/-- The value of a decimal digit. -/
def decimalDigit? (c : Char) : Option Nat :=
  (decimalZeros.find? fun first => first ≤ c.toNat ∧ c.toNat < first + 10).map (c.toNat - ·)

namespace Numeral

/-- Why a text is no numeral. -/
inductive Fault where
  | malformed
  | tooLong (digits : Nat)
  deriving DecidableEq

/-- The greatest number of digits. -/
def maxDigits : Nat := 4300

/-- Whether a character may stand around a numeral: the blanks without the four separators of
information. -/
def isSurrounding (c : Char) : Bool :=
  isBlank c && !(0x1c ≤ c.toNat && c.toNat ≤ 0x1f)

/-- Whether a character belongs to a numeral's digits. -/
def isPart (c : Char) : Bool :=
  c = '_' || (decimalDigit? c).isSome

/-- Whether all underscores stand alone between digits. -/
def isGrouped (cs : List Char) : Bool :=
  (splitOn '_' cs).all fun group => !group.isEmpty

/-- The number that digits spell. -/
def value (cs : List Char) : Nat :=
  (cs.filterMap decimalDigit?).foldl (fun n d => 10 * n + d) 0

/-- A sign and what follows it. -/
def sign : List Char → Bool × List Char
  | '-' :: rest => (true, rest)
  | '+' :: rest => (false, rest)
  | cs => (false, cs)

/-- The integer that a text spells. -/
def read (text : String) : Except Fault Int :=
  let (negative, cs) := sign (text.toList.dropWhile isSurrounding)
  let part := cs.takeWhile isPart
  let count := (part.filterMap decimalDigit?).length
  if !isGrouped part then .error .malformed
  else if maxDigits < count then .error (.tooLong count)
  else if !(cs.drop part.length).all isSurrounding then .error .malformed
  else
    let n : Int := value part
    .ok (if negative then -n else n)

/-- Digits from the last one on, with a comma behind each three that others follow. -/
def groupBackward : List Char → List Char
  | a :: b :: c :: d :: rest => a :: b :: c :: ',' :: groupBackward (d :: rest)
  | digits => digits

/-- A number with a comma before each three digits. -/
def grouped (n : Nat) : String :=
  String.ofList (groupBackward (toString n).toList.reverse).reverse

end Numeral

end ArchiveExport.Text
