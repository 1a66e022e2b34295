import ArchiveExport.Bytes.Basic
import ArchiveExport.Text.Lowercase
import ArchiveExport.Text.PrintableTable

/-!
# Quoted text

A text shown inside a message stands in single quotes, or in double quotes when it holds a single
quote and no double one. The quote, the backslash and every character without a printed form are
written as escapes.
-/

namespace ArchiveExport.Text

/-- Whether a character has a printed form. -/
def isPrintable (c : Char) : Bool :=
  let n := c.toNat
  if n < 0x7F then 0x20 ≤ n else !inRanges unprintableRanges n

/-- The last `width` hexadecimal digits of a number. -/
def hexDigits : Nat → Nat → List Char
  | 0, _ => []
  | width + 1, n => hexDigits width (n / 16) ++ [Bytes.hexDigit (n % 16)]

/-- The escape for a code point: by its size with two, four or eight digits. -/
def escapeCode (n : Nat) : List Char :=
  if n < 0x100 then '\\' :: 'x' :: hexDigits 2 n
  else if n < 0x10000 then '\\' :: 'u' :: hexDigits 4 n
  else '\\' :: 'U' :: hexDigits 8 n

/-- The escape for a character that has a short one. -/
def shortEscape? (delimiter c : Char) : Option (List Char) :=
  if c = delimiter ∨ c = '\\' then some ['\\', c]
  else if c = '\n' then some ['\\', 'n']
  else if c = '\r' then some ['\\', 'r']
  else if c = '\t' then some ['\\', 't']
  else none

/-- How a character is written between quotes. -/
def escapeChar (delimiter c : Char) : List Char :=
  match shortEscape? delimiter c with
  | some escape => escape
  | none => if isPrintable c then [c] else escapeCode c.toNat

/-- The quote that surrounds a text. -/
def delimiterFor (cs : List Char) : Char :=
  if cs.contains '\'' && !cs.contains '"' then '"' else '\''

/-- A text in quotes. -/
def quote (text : String) : String :=
  let cs := text.toList
  let delimiter := delimiterFor cs
  String.ofList (delimiter :: cs.flatMap (escapeChar delimiter) ++ [delimiter])

/-- A byte string in quotes after the letter `b`, octets outside of ASCII as escapes. -/
def quoteBytes (bs : Bytes) : String :=
  let cs := bs.map fun b => Char.ofNat b.toNat
  let delimiter := delimiterFor cs
  let escape (c : Char) : List Char :=
    match shortEscape? delimiter c with
    | some escape => escape
    | none => if 0x20 ≤ c.toNat ∧ c.toNat < 0x7F then [c] else escapeCode c.toNat
  String.ofList ('b' :: delimiter :: cs.flatMap escape ++ [delimiter])

end ArchiveExport.Text
