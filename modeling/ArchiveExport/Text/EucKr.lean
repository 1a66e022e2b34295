import ArchiveExport.Bytes.Basic
import ArchiveExport.Text.KsX1001Table

/-!
# EUC-KR

Octets below 0x80 are ASCII. Two octets from 0xA1 to 0xFE name a cell of KS X 1001 by row and
column. The pair A4 D4 opens a syllable composed of an initial consonant, a vowel and a final
consonant, each written as a pair of the row A4; the filler A4 D4 stands for no final consonant.
-/

namespace ArchiveExport.Text.EucKr

/-- What is wrong with octets that spell no character. -/
inductive Cause where
  /-- They name no character. -/
  | illegal
  /-- They end inside a character. -/
  | incomplete
  deriving DecidableEq, Repr

/-- The reading of the first character of octets: its width with the character, or with the
cause why there is none. -/
inductive Head where
  | char (c : Char) (width : Nat)
  | fault (cause : Cause) (width : Nat)
  deriving DecidableEq, Repr

/-- The character in a cell of KS X 1001, rows and columns counted from the octet 0xA1. -/
def cell? (row column : Nat) : Option Char :=
  match ksX1001Rows[row - 0xA1]? with
  | none => none
  | some cells =>
    match cells.toList[column - 0xA1]? with
    | some c => if c.toNat = 0xFFFD then none else some c
    | none => none

/-- The character of a pair of octets. -/
def pair? (a b : Nat) : Option Char :=
  if 0xA1 ≤ a ∧ a ≤ 0xFE ∧ 0xA1 ≤ b ∧ b ≤ 0xFE then cell? a b else none

/-- The letters of the row A4 that can start a syllable, by their number among the initials. -/
def initialLetters : List Nat :=
  [0xA1, 0xA2, 0xA4, 0xA7, 0xA8, 0xA9, 0xB1, 0xB2, 0xB3, 0xB5, 0xB6, 0xB7, 0xB8, 0xB9, 0xBA,
    0xBB, 0xBC, 0xBD, 0xBE]

/-- The letters of the row A4 that can end a syllable, by their number among the finals, where
the filler comes first. -/
def finalLetters : List Nat :=
  [0xD4, 0xA1, 0xA2, 0xA3, 0xA4, 0xA5, 0xA6, 0xA7, 0xA9, 0xAA, 0xAB, 0xAC, 0xAD, 0xAE, 0xAF,
    0xB0, 0xB1, 0xB2, 0xB4, 0xB5, 0xB6, 0xB7, 0xB8, 0xBA, 0xBB, 0xBC, 0xBD, 0xBE]

/-- The syllable composed of three letters of the row A4. -/
def syllable? (initial vowel final : Nat) : Option Char :=
  match initialLetters.idxOf? initial, finalLetters.idxOf? final with
  | some i, some f =>
    if 0xBF ≤ vowel ∧ vowel ≤ 0xD3 then
      some (Char.ofNat (0xAC00 + 588 * i + 28 * (vowel - 0xBF) + f))
    else none
  | _, _ => none

/-- Read the character at the front of `b :: rest`. -/
def head (b : UInt8) (rest : Bytes) : Head :=
  if b.toNat < 0x80 then .char (Char.ofNat b.toNat) 1
  else
    match rest with
    | [] => .fault .incomplete 1
    | b₁ :: rest₁ =>
      if b.toNat = 0xA4 ∧ b₁.toNat = 0xD4 then
        match rest₁ with
        | b₂ :: b₃ :: b₄ :: b₅ :: b₆ :: b₇ :: _ =>
          if b₂.toNat = 0xA4 ∧ b₄.toNat = 0xA4 ∧ b₆.toNat = 0xA4 then
            match syllable? b₃.toNat b₅.toNat b₇.toNat with
            | some c => .char c 8
            | none => .fault .illegal 1
          else .fault .illegal 1
        | _ => .fault .incomplete (2 + rest₁.length)
      else
        match pair? b.toNat b₁.toNat with
        | some c => .char c 2
        | none => .fault .illegal 1

/-- Read characters until the octets end or a fault; `skip` octets belong to a character already
read, and `done` holds the characters before, the last one first. -/
def run (position skip : Nat) (done : List Char) :
    Bytes → Except (Nat × Nat × UInt8 × Cause) (List Char)
  | [] => .ok done.reverse
  | b :: rest =>
    match skip with
    | k + 1 => run (position + 1) k done rest
    | 0 =>
      match head b rest with
      | .char c width => run (position + 1) (width - 1) (c :: done) rest
      | .fault cause width => .error (position, width, b, cause)

/-- Read characters with U+FFFD for every piece that spells none. -/
def runLossy (skip : Nat) (done : List Char) : Bytes → List Char
  | [] => done.reverse
  | b :: rest =>
    match skip with
    | k + 1 => runLossy k done rest
    | 0 =>
      match head b rest with
      | .char c width => runLossy (width - 1) (c :: done) rest
      | .fault _ width => runLossy (width - 1) (Char.ofNat 0xFFFD :: done) rest

/-- The text that octets spell, with U+FFFD for every piece that spells none. -/
def decodeLossy (bs : Bytes) : List Char :=
  runLossy 0 [] bs

end ArchiveExport.Text.EucKr
