/-!
# Byte strings

File contents, entry data and pixel data are lists of octets. Numbers in the file formats are
stored with their low octet first.
-/

namespace ArchiveExport

/-- A string of octets. -/
abbrev Bytes := List UInt8

namespace Bytes

/-- The natural number written with its low octet first. -/
def toNat : Bytes → Nat
  | [] => 0
  | b :: rest => b.toNat + 256 * toNat rest

/-- The `width` low octets of a number, the lowest first. -/
def ofNat : Nat → Nat → Bytes
  | 0, _ => []
  | width + 1, n => UInt8.ofNat n :: ofNat width (n / 256)

/-- The signed number that the octets hold in two's complement, low octet first. -/
def toInt (bs : Bytes) : Int :=
  Int.bmod bs.toNat (Nat.pow 256 bs.length)

/-- The low octets of a signed number in two's complement. -/
def ofInt (width : Nat) (n : Int) : Bytes :=
  ofNat width (n % Nat.pow 256 width).toNat

/-- The field of `width` octets at `offset`, shorter where the octets end. -/
def slice (bs : Bytes) (offset width : Nat) : Bytes :=
  (bs.drop offset).take width

/-- Cut to `size` octets, or fill up to them with zeros. -/
def fit (bs : Bytes) (size : Nat) : Bytes :=
  let cut := bs.take size
  cut ++ List.replicate (size - cut.length) 0

/-- The UTF-8 octets of a text. -/
def ofString (text : String) : Bytes :=
  text.toList.flatMap String.utf8EncodeChar

/-- The digit for a value below sixteen, in lower case. -/
def hexDigit (n : Nat) : Char :=
  if n < 10 then Char.ofNat (48 + n) else Char.ofNat (87 + n)

/-- Two hexadecimal digits for each octet. -/
def toHex (bs : Bytes) : String :=
  String.ofList <| bs.flatMap fun b => [hexDigit (b.toNat / 16), hexDigit (b.toNat % 16)]

/-- The value of a hexadecimal digit of either case. -/
def hexValue? (c : Char) : Option Nat :=
  let n := c.toNat
  if 48 ≤ n ∧ n ≤ 57 then some (n - 48)
  else if 97 ≤ n ∧ n ≤ 102 then some (n - 87)
  else if 65 ≤ n ∧ n ≤ 70 then some (n - 55)
  else none

/-- The octets written as pairs of hexadecimal digits. -/
def ofHex? (text : String) : Option Bytes :=
  let rec go : List Char → Bytes → Option Bytes
    | [], done => some done.reverse
    | [_], _ => none
    | a :: b :: rest, done =>
      match hexValue? a, hexValue? b with
      | some hi, some lo => go rest (UInt8.ofNat (16 * hi + lo) :: done)
      | _, _ => none
  go text.toList []

@[simp] theorem length_ofNat (width n : Nat) : (ofNat width n).length = width := by
  induction width generalizing n with
  | zero => rfl
  | succ width ih => simp [ofNat, ih]

/-- A number that fits its field is read back. -/
theorem toNat_ofNat {width n : Nat} (h : n < Nat.pow 256 width) : (ofNat width n).toNat = n := by
  induction width generalizing n with
  | zero =>
    have : n = 0 := by simpa using h
    simp [ofNat, toNat, this]
  | succ width ih =>
    have hdiv : n / 256 < Nat.pow 256 width :=
      (Nat.div_lt_iff_lt_mul (by decide : 0 < 256)).2 h
    simp only [ofNat, toNat, UInt8.toNat_ofNat', ih hdiv]
    omega

theorem toNat_lt (bs : Bytes) : bs.toNat < Nat.pow 256 bs.length := by
  induction bs with
  | nil => exact Nat.one_pos
  | cons b bs ih =>
    have hb : b.toNat < 256 := b.toNat_lt
    have hpow : Nat.pow 256 (b :: bs).length = 256 * Nat.pow 256 bs.length := Nat.pow_succ'
    rw [hpow, toNat]
    omega

/-- Octets are those of the number that they spell. -/
theorem ofNat_toNat (bs : Bytes) : ofNat bs.length bs.toNat = bs := by
  induction bs with
  | nil => rfl
  | cons b bs ih =>
    have hb : b.toNat < 256 := b.toNat_lt
    have hfirst : UInt8.ofNat (b.toNat + 256 * toNat bs) = b := by
      apply UInt8.toNat.inj
      rw [UInt8.toNat_ofNat']
      omega
    have hmore : (b.toNat + 256 * toNat bs) / 256 = toNat bs := by omega
    rw [List.length_cons, ofNat, toNat, hfirst, hmore, ih]

@[simp] theorem length_fit (bs : Bytes) (size : Nat) : (bs.fit size).length = size := by
  simp only [fit, List.length_append, List.length_take, List.length_replicate]
  omega

end Bytes

end ArchiveExport
