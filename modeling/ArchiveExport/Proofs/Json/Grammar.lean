import ArchiveExport.Json.Reader

/-!
# The grammar of JSON texts

Which texts are JSON texts (RFC 8259). A number is written as a numeral in decimal digits: the
grammar has no name for an infinite number. Between tokens any blanks may stand.
-/

namespace ArchiveExport.Json

/-- Nothing but blanks. -/
def IsGap (cs : List Char) : Prop :=
  ∀ c ∈ cs, isSpace c = true

/-! ### Numerals -/

/-- One digit or more. -/
def IsDigits (cs : List Char) : Prop :=
  cs ≠ [] ∧ ∀ c ∈ cs, isDigit c = true

/-- The digits in front of the point: a zero has no others behind it. -/
def IsWhole (cs : List Char) : Prop :=
  IsDigits cs ∧ (cs.head? = some '0' → cs = ['0'])

/-- What stands from the point on, if there is one. -/
inductive IsFraction : List Char → Prop
  | none : IsFraction []
  | digits {cs : List Char} (h : IsDigits cs) : IsFraction ('.' :: cs)

/-- An exponent, if there is one. -/
inductive IsExponent : List Char → Prop
  | none : IsExponent []
  | digits {letter : Char} {sign cs : List Char} (hletter : letter = 'e' ∨ letter = 'E')
      (hsign : sign = [] ∨ sign = ['+'] ∨ sign = ['-']) (h : IsDigits cs) :
      IsExponent (letter :: (sign ++ cs))

/-- A numeral. -/
inductive IsNumeral : List Char → Prop
  | parts {sign whole fraction exponent : List Char} (hsign : sign = [] ∨ sign = ['-'])
      (hwhole : IsWhole whole) (hfraction : IsFraction fraction) (hexponent : IsExponent exponent) :
      IsNumeral (sign ++ (whole ++ (fraction ++ exponent)))

/-! ### Texts -/

/-- What may stand between two quotes. -/
inductive IsTextBody : List Char → Prop
  | nil : IsTextBody []
  | plain {c : Char} {cs : List Char} (hcontrol : 0x20 ≤ c.toNat) (hquote : c ≠ '"')
      (hescape : c ≠ '\\') (h : IsTextBody cs) : IsTextBody (c :: cs)
  | short {c : Char} {cs : List Char} (hc : c ∈ ['"', '\\', '/', 'b', 'f', 'n', 'r', 't'])
      (h : IsTextBody cs) : IsTextBody ('\\' :: c :: cs)
  | unit {a b c d : Char} {cs : List Char} (hdigits : ∀ x ∈ [a, b, c, d], (hexValue? x).isSome)
      (h : IsTextBody cs) : IsTextBody ('\\' :: 'u' :: a :: b :: c :: d :: cs)

/-- A text in quotes. -/
inductive IsText : List Char → Prop
  | quoted {body : List Char} (h : IsTextBody body) : IsText ('"' :: (body ++ ['"']))

/-! ### Values -/

/-- Pieces in a row, with commas between them and blanks around each. -/
inductive Joined : List (List Char) → List Char → Prop
  | nil {gap : List Char} (h : IsGap gap) : Joined [] gap
  | last {before piece after : List Char} (hbefore : IsGap before) (hafter : IsGap after) :
      Joined [piece] (before ++ (piece ++ after))
  | cons {before piece after cs : List Char} {pieces : List (List Char)} (hbefore : IsGap before)
      (hafter : IsGap after) (hne : pieces ≠ []) (h : Joined pieces cs) :
      Joined (piece :: pieces) (before ++ (piece ++ (after ++ ',' :: cs)))

/-- The parts of a member: its name, the blanks around the colon, and its value. -/
structure MemberText where
  name : List Char
  before : List Char
  after : List Char
  value : List Char

/-- The text of a member. -/
def MemberText.text (m : MemberText) : List Char :=
  m.name ++ (m.before ++ ':' :: (m.after ++ m.value))

/-- A name with blanks around its colon. -/
structure MemberText.IsNamed (m : MemberText) : Prop where
  name : IsText m.name
  before : IsGap m.before
  after : IsGap m.after

/-- The text of a value. -/
inductive IsValue : List Char → Prop
  | null : IsValue "null".toList
  | true : IsValue "true".toList
  | false : IsValue "false".toList
  | numeral {cs : List Char} (h : IsNumeral cs) : IsValue cs
  | text {cs : List Char} (h : IsText cs) : IsValue cs
  | array {items : List (List Char)} {cs : List Char} (hitems : ∀ i ∈ items, IsValue i)
      (hcs : Joined items cs) : IsValue ('[' :: (cs ++ [']']))
  | object {members : List MemberText} {cs : List Char} (hnames : ∀ m ∈ members, m.IsNamed)
      (hvalues : ∀ m ∈ members, IsValue m.value) (hcs : Joined (members.map MemberText.text) cs) :
      IsValue ('\x7b' :: (cs ++ ['\x7d']))

/-- A JSON text: one value with blanks around it. -/
inductive IsDocument : List Char → Prop
  | value {before cs after : List Char} (hbefore : IsGap before) (h : IsValue cs)
      (hafter : IsGap after) : IsDocument (before ++ (cs ++ after))

end ArchiveExport.Json
