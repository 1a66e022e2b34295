import ArchiveExport.Number.Binary64

/-!
# Single-precision numbers

The file formats store real numbers in 32 bits: a sign, eight bits of exponent and 23 bits of
significand. A stored number is kept as its bits and widened, without rounding, when its value is
needed.
-/

namespace ArchiveExport

/-- A stored number of 32 bits. -/
structure Binary32 where
  bits : UInt32
  deriving DecidableEq, Repr, Inhabited

namespace Binary32

/-- The number one. -/
def one : Binary32 := ⟨0x3F800000⟩

/-- Whether the sign bit is set. -/
def isNegative (x : Binary32) : Bool :=
  x.bits.toNat / Nat.pow 2 31 = 1

/-- The stored exponent. -/
def storedExponent (x : Binary32) : Nat :=
  x.bits.toNat / Nat.pow 2 23 % Nat.pow 2 8

/-- The stored part of the significand. -/
def storedSignificand (x : Binary32) : Nat :=
  x.bits.toNat % Nat.pow 2 23

/-- The number with the same value in double precision. -/
def toBinary64 (x : Binary32) : Binary64 :=
  if x.storedExponent = 255 then
    if x.storedSignificand = 0 then .infinity x.isNegative else .nan
  else if x.storedExponent = 0 then
    .ofQuotient x.isNegative x.storedSignificand (Nat.pow 2 149)
  else
    let significand := Nat.pow 2 23 + x.storedSignificand
    if 150 ≤ x.storedExponent then
      .ofQuotient x.isNegative (significand * Nat.pow 2 (x.storedExponent - 150)) 1
    else
      .ofQuotient x.isNegative significand (Nat.pow 2 (150 - x.storedExponent))

end Binary32

end ArchiveExport
