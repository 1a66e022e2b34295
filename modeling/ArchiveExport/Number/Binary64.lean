/-!
# Binary floating-point numbers

A number with 53 binary digits and an exponent, an infinity, or no number. The arithmetic here is
exact on integers: a result is the exact quotient, rounded once to the nearest number, and to the
one with an even significand when two are equally near.
-/

namespace ArchiveExport

/-- A floating-point number. A finite one is `significand * 2 ^ exponent` with a sign. -/
inductive Binary64 where
  | nan
  | infinity (negative : Bool)
  | finite (negative : Bool) (significand : Nat) (exponent : Int)
  deriving DecidableEq, Repr, Inhabited

namespace Binary64

/-- The least exponent of a finite number. -/
def minExponent : Int := -1074

/-- The greatest exponent of a finite number. -/
def maxExponent : Int := 971

/-- Zero with a sign. -/
def zero (negative : Bool) : Binary64 := .finite negative 0 minExponent

/-- The quotient rounded to the nearest natural number, a half to the even neighbour. -/
def roundQuotient (num den : Nat) : Nat :=
  let quotient := num / den
  let rest := num % den
  if 2 * rest < den then quotient
  else if den < 2 * rest then quotient + 1
  else if quotient % 2 = 0 then quotient else quotient + 1

/-- The quotient of `num` and `den * 2 ^ exponent`, as numerator and denominator. -/
def scale (num den : Nat) (exponent : Int) : Nat × Nat :=
  if 0 ≤ exponent then (num, den * Nat.pow 2 exponent.toNat)
  else (num * Nat.pow 2 (-exponent).toNat, den)

/-- The exponent at which the significand of `num / den` has 53 binary digits, or the least one. -/
def exponentOf (num den : Nat) : Int :=
  let guess : Int := (num.log2 : Int) - den.log2 - 52
  let scaled := scale num den guess
  let fitted := if scaled.1 / scaled.2 < Nat.pow 2 52 then guess - 1 else guess
  max minExponent fitted

/-- The number nearest to a quotient, with a sign. -/
def ofQuotient (negative : Bool) (num den : Nat) : Binary64 :=
  if num = 0 then zero negative
  else
    let exponent := exponentOf num den
    let scaled := scale num den exponent
    let significand := roundQuotient scaled.1 scaled.2
    let significand' := if significand = Nat.pow 2 53 then Nat.pow 2 52 else significand
    let exponent' := if significand = Nat.pow 2 53 then exponent + 1 else exponent
    if maxExponent < exponent' then .infinity negative
    else .finite negative significand' exponent'

/-- The number nearest to an integer. -/
def ofInt (n : Int) : Binary64 :=
  ofQuotient (n < 0) n.natAbs 1

/-- The value of a finite number without its sign, as numerator and denominator. -/
def ratio (significand : Nat) (exponent : Int) : Nat × Nat :=
  if 0 ≤ exponent then (significand * Nat.pow 2 exponent.toNat, 1)
  else (significand, Nat.pow 2 (-exponent).toNat)

/-- The product, rounded. -/
def mul : Binary64 → Binary64 → Binary64
  | .nan, _ | _, .nan => .nan
  | .infinity a, .infinity b => .infinity (a != b)
  | .infinity a, .finite b s _ | .finite b s _, .infinity a =>
    if s = 0 then .nan else .infinity (a != b)
  | .finite a s e, .finite b t f =>
    let left := ratio s e
    let right := ratio t f
    ofQuotient (a != b) (left.1 * right.1) (left.2 * right.2)

/-- The sum, rounded; a sum of zero is positive unless both sides are negative zeros. -/
def add : Binary64 → Binary64 → Binary64
  | .nan, _ | _, .nan => .nan
  | .infinity a, .infinity b => if a = b then .infinity a else .nan
  | .infinity a, .finite .. | .finite .., .infinity a => .infinity a
  | .finite a s e, .finite b t f =>
    let left := ratio s e
    let right := ratio t f
    let signed (negative : Bool) (n : Nat) : Int := if negative then -(n : Int) else n
    let num := signed a (left.1 * right.2) + signed b (right.1 * left.2)
    if num = 0 then zero (a && b) else ofQuotient (num < 0) num.natAbs (left.2 * right.2)

/-- Whether a finite number is less than another, by their signed values. -/
def finiteLt (a : Bool) (s : Nat) (e : Int) (b : Bool) (t : Nat) (f : Int) : Bool :=
  let left := ratio s e
  let right := ratio t f
  let signed (negative : Bool) (n : Nat) : Int := if negative then -(n : Int) else n
  signed a (left.1 * right.2) < signed b (right.1 * left.2)

/-- Whether a number is less than another; nothing is less or greater than no number. -/
def lt : Binary64 → Binary64 → Bool
  | .nan, _ | _, .nan => false
  | .infinity a, .infinity b => a && !b
  | .infinity a, .finite .. => a
  | .finite .., .infinity b => !b
  | .finite a s e, .finite b t f => finiteLt a s e b t f

/-- Whether a number is greater than zero. -/
def isPositive : Binary64 → Bool
  | .nan => false
  | .infinity negative => !negative
  | .finite negative s _ => !negative && s != 0

/-- Whether a number is zero, of either sign. -/
def isZero : Binary64 → Bool
  | .finite _ 0 _ => true
  | _ => false

/-- The integer part of a finite number. -/
def truncate? : Binary64 → Option Int
  | .finite negative s e =>
    let value := ratio s e
    let whole : Int := (value.1 / value.2 : Nat)
    some (if negative then -whole else whole)
  | _ => none

/-- The greatest integer that is not greater than a finite number. -/
def floor? : Binary64 → Option Int
  | .finite negative s e =>
    let value := ratio s e
    let num : Int := if negative then -(value.1 : Int) else value.1
    some (num.fdiv value.2)
  | _ => none

/-- A decimal numeral: its digits as one number, and the power of ten that they count. -/
structure Decimal where
  digits : Nat
  exponent : Int
  deriving DecidableEq, Repr

/-- The number of decimal digits of a natural number. -/
def digitCount (n : Nat) : Nat :=
  (Nat.toDigits 10 n).length

/-- The value of a numeral as numerator and denominator. -/
def Decimal.ratio (d : Decimal) : Nat × Nat :=
  if 0 ≤ d.exponent then (d.digits * Nat.pow 10 d.exponent.toNat, 1)
  else (d.digits, Nat.pow 10 (-d.exponent).toNat)

/-- The number nearest to a numeral. A numeral far outside of the range of numbers is settled by
its size alone. -/
def ofDecimal (negative : Bool) (d : Decimal) : Binary64 :=
  let magnitude : Int := d.exponent + digitCount d.digits
  if d.digits = 0 ∨ magnitude < -400 then zero negative
  else if 400 < magnitude then .infinity negative
  else ofQuotient negative d.ratio.1 d.ratio.2

/-- The power of ten just above `num / den`. -/
def decimalMagnitude (num den : Nat) : Int :=
  if den ≤ num then (digitCount (num / den) : Int)
  else
    let zeros := digitCount ((den - 1) / num)
    if den ≤ num * Nat.pow 10 (zeros - 1) then 2 - (zeros : Int) else 1 - (zeros : Int)

/-- The two neighbours of `num / den` among the multiples of a power of ten. -/
def neighbours (num den : Nat) (exponent : Int) : Nat × Nat :=
  let scaled : Nat × Nat :=
    if 0 ≤ exponent then (num, den * Nat.pow 10 exponent.toNat)
    else (num * Nat.pow 10 (-exponent).toNat, den)
  (scaled.1 / scaled.2, scaled.1 / scaled.2 + 1)

/-- Whether the lower neighbour of `num / den` is nearer than the upper one, or as near and even. -/
def lowerIsNearer (num den : Nat) (exponent : Int) : Bool :=
  let scaled : Nat × Nat :=
    if 0 ≤ exponent then (num, den * Nat.pow 10 exponent.toNat)
    else (num * Nat.pow 10 (-exponent).toNat, den)
  let twice := 2 * (scaled.1 % scaled.2)
  twice < scaled.2 || (twice = scaled.2 && scaled.1 / scaled.2 % 2 = 0)

/-- Search numerals with `digits`, `digits + 1`, … digits for one that reads back as `x`, the
nearer of two; `x` has the value `num / den`. -/
def shortestFrom (x : Binary64) (num den : Nat) (magnitude : Int) : Nat → Nat → Decimal
  | 0, digits =>
    let exponent := magnitude - digits
    ⟨(neighbours num den exponent).1, exponent⟩
  | fuel + 1, digits =>
    let exponent := magnitude - digits
    let pair := neighbours num den exponent
    let lower : Decimal := ⟨pair.1, exponent⟩
    let upper : Decimal := ⟨pair.2, exponent⟩
    let lowerFits := decide (ofDecimal false lower = x)
    let upperFits := decide (ofDecimal false upper = x)
    if lowerFits && (!upperFits || lowerIsNearer num den exponent) then lower
    else if upperFits then upper
    else shortestFrom x num den magnitude fuel (digits + 1)

/-- The shortest numeral that reads back as a positive number: with the fewest digits, and of
those the nearest, a half going to the even digit. The search ends at the exact expansion at the
latest. -/
def shortest (significand : Nat) (exponent : Int) : Decimal :=
  let value := ratio significand exponent
  shortestFrom (.finite false significand exponent) value.1 value.2
    (decimalMagnitude value.1 value.2) 800 1

/-- The decimal digits of a natural number. -/
def natDigits (n : Nat) : List Char :=
  Nat.toDigits 10 n

/-- A numeral without trailing zeros in its digits. -/
def Decimal.trimmed : Nat → Decimal → Decimal
  | 0, d => d
  | fuel + 1, d =>
    if d.digits ≠ 0 ∧ d.digits % 10 = 0 then
      Decimal.trimmed fuel ⟨d.digits / 10, d.exponent + 1⟩
    else d

/-- How a numeral is written: positionally while the number lies between the ten-thousandth and
ten to the sixteenth, always with a point; otherwise with one digit before the point and an
exponent of at least two digits. -/
def Decimal.text (d : Decimal) : List Char :=
  let d := d.trimmed 800
  let ds := natDigits d.digits
  let point : Int := ds.length + d.exponent
  if -4 < point ∧ point ≤ 16 then
    if point ≤ 0 then
      '0' :: '.' :: List.replicate (-point).toNat '0' ++ ds
    else if ds.length ≤ point.toNat then
      ds ++ List.replicate (point.toNat - ds.length) '0' ++ ['.', '0']
    else
      ds.take point.toNat ++ '.' :: ds.drop point.toNat
  else
    let power := point - 1
    let sign := if power < 0 then '-' else '+'
    let powerDigits := natDigits power.natAbs
    let powerDigits := if powerDigits.length < 2 then '0' :: powerDigits else powerDigits
    let mantissa :=
      match ds with
      | [] => []
      | [c] => [c]
      | c :: rest => c :: '.' :: rest
    mantissa ++ 'e' :: sign :: powerDigits

/-- The text of a finite number. -/
def finiteText (negative : Bool) (significand : Nat) (exponent : Int) : List Char :=
  let body := if significand = 0 then ['0', '.', '0'] else (shortest significand exponent).text
  if negative then '-' :: body else body

/-- The text of a number in messages. -/
def text : Binary64 → String
  | .nan => "nan"
  | .infinity negative => if negative then "-inf" else "inf"
  | .finite negative s e => String.ofList (finiteText negative s e)

/-- A number with one digit after the point, a half going to the even neighbour. -/
def fixedOne : Binary64 → String
  | .finite negative s e =>
    let value := ratio s e
    let tenths := roundQuotient (10 * value.1) value.2
    (if negative then "-" else "") ++ toString (tenths / 10) ++ "." ++ toString (tenths % 10)
  | x => x.text

end Binary64

end ArchiveExport
