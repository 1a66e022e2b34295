import ArchiveExport.Proofs.Number.Rounding
import Mathlib.Data.Nat.Cast.Order.Field

/-!
# Decimal numerals

A numeral is read as the number nearest to its value, so that numerals of one value are read alike.
The numeral chosen for a number is read back as that number: each numeral on the way is tried, and
the last one has the very value of the number.
-/

namespace ArchiveExport.Binary64

variable {negative : Bool} {num den n k s : Nat} {e m : Int} {d d' : Decimal}
  {x : Binary64}

/-! ### Numbers of digits -/

theorem digitCount_le_iff (n : Nat) (hk : 0 < k) : digitCount n ≤ k ↔ n < 10 ^ k :=
  Nat.length_toDigits_le_iff (by decide) hk

theorem digitCount_pos (n : Nat) : 0 < digitCount n :=
  Nat.length_toDigits_pos

theorem lt_ten_pow_digitCount (n : Nat) : n < 10 ^ digitCount n :=
  (digitCount_le_iff n (digitCount_pos n)).mp (le_refl _)

theorem ten_pow_le_of_lt_digitCount (hn : n ≠ 0) (h : k < digitCount n) : 10 ^ k ≤ n := by
  by_contra hlt
  rcases Nat.eq_zero_or_pos k with rfl | hk
  · omega
  · exact absurd ((digitCount_le_iff n hk).mpr (Nat.lt_of_not_le hlt)) (Nat.not_le.mpr h)

theorem lt_of_ten_pow {q : ℚ} {a b : Int} (ha : 10 ^ a ≤ q) (hb : q < 10 ^ b) : a < b :=
  (zpow_lt_zpow_iff_right₀ (by norm_num)).mp (lt_of_le_of_lt ha hb)

/-! ### The value of a numeral -/

namespace Decimal

/-- The value of a numeral. -/
def value (d : Decimal) : ℚ :=
  d.digits * 10 ^ d.exponent

/-- The power of ten just above the value of a numeral. -/
def magnitude (d : Decimal) : Int :=
  d.exponent + digitCount d.digits

theorem ratio_pos (d : Decimal) : 0 < d.ratio.2 := by
  unfold ratio
  split
  · exact Nat.one_pos
  · exact Nat.pow_pos (by decide)

theorem ratio_div (d : Decimal) : (d.ratio.1 / d.ratio.2 : ℚ) = d.value := by
  unfold ratio value
  split
  next h =>
    rw [zpow_eq_pow 10 h, Nat.cast_one, div_one, Nat.cast_mul]
    exact congrArg _ (Nat.cast_pow 10 _)
  next h =>
    rw [zpow_eq_inv_pow 10 h, ← div_eq_mul_inv]
    exact congrArg _ (Nat.cast_pow 10 _)

theorem value_eq_zero_iff (d : Decimal) : d.value = 0 ↔ d.digits = 0 := by
  have hpow : (10 : ℚ) ^ d.exponent ≠ 0 := zpow_ne_zero _ (by norm_num)
  rw [value, mul_eq_zero, or_iff_left hpow, Nat.cast_eq_zero]

theorem value_lt (d : Decimal) : d.value < 10 ^ d.magnitude := by
  rw [value, magnitude, zpow_add₀ (by norm_num), zpow_natCast, mul_comm]
  have hdigits : (d.digits : ℚ) < 10 ^ digitCount d.digits := by
    exact_mod_cast lt_ten_pow_digitCount d.digits
  exact mul_lt_mul_of_pos_left hdigits (zpow_pos (by norm_num) _)

theorem le_value (h : d.digits ≠ 0) : 10 ^ (d.magnitude - 1) ≤ d.value := by
  have hpos := digitCount_pos d.digits
  have hsplit : d.magnitude - 1 = d.exponent + ((digitCount d.digits - 1 : Nat) : Int) := by
    rw [magnitude]
    omega
  rw [value, hsplit, zpow_add₀ (by norm_num), zpow_natCast, mul_comm]
  have hdigits : (10 : ℚ) ^ (digitCount d.digits - 1) ≤ d.digits := by
    exact_mod_cast ten_pow_le_of_lt_digitCount h (by omega)
  exact mul_le_mul_of_nonneg_right hdigits (zpow_pos (by norm_num) _).le

theorem magnitude_congr (hd : d.digits ≠ 0) (hd' : d'.digits ≠ 0) (h : d.value = d'.value) :
    d.magnitude = d'.magnitude := by
  have hle := lt_of_ten_pow (le_value hd) (h ▸ d'.value_lt)
  have hge := lt_of_ten_pow (le_value hd') (h ▸ d.value_lt)
  omega

/-- Cutting zeros off the digits keeps the value. -/
theorem value_trimmed (fuel : Nat) (d : Decimal) : (d.trimmed fuel).value = d.value := by
  induction fuel generalizing d with
  | zero => rfl
  | succ fuel ih =>
      rw [trimmed]
      split
      next h =>
        have hdigits : d.digits = 10 * (d.digits / 10) := by omega
        have hcast : (d.digits : ℚ) = 10 * (d.digits / 10 : Nat) := by exact_mod_cast hdigits
        rw [ih, value, value, hcast, zpow_add_one₀ (by norm_num)]
        ring
      next => rfl

end Decimal

/-! ### Reading a numeral -/

/-- Numerals of one value are read as one number. -/
theorem ofDecimal_congr (h : d.value = d'.value) :
    ofDecimal negative d = ofDecimal negative d' := by
  have hiff : d.digits = 0 ↔ d'.digits = 0 := by
    rw [← d.value_eq_zero_iff, h, d'.value_eq_zero_iff]
  by_cases hzero : d.digits = 0
  · rw [ofDecimal, ofDecimal, if_pos (Or.inl hzero), if_pos (Or.inl (hiff.mp hzero))]
  · have hmagnitude := Decimal.magnitude_congr hzero (mt hiff.mpr hzero) h
    have hquotient : ofQuotient negative d.ratio.1 d.ratio.2 =
        ofQuotient negative d'.ratio.1 d'.ratio.2 :=
      ofQuotient_congr d.ratio_pos d'.ratio_pos (by rw [d.ratio_div, h, d'.ratio_div])
    simp only [Decimal.magnitude] at hmagnitude
    simp only [ofDecimal, hmagnitude, hquotient, hiff]

/-- The value of a number in normal form lies far inside of the range of numerals that are not
settled by their size. -/
theorem Canonical.value_bounds (h : (finite negative s e).Canonical) (hs : s ≠ 0) :
    (10 : ℚ) ^ (-400 : Int) ≤ value s e ∧ value s e < 10 ^ (400 : Int) := by
  obtain ⟨hmin, hmax, hlt, -⟩ := h
  have hpos : (0 : ℚ) < 2 ^ e := zpow_pos (by norm_num) _
  have hs1 : (1 : ℚ) ≤ s := by exact_mod_cast Nat.one_le_iff_ne_zero.mpr hs
  have hs2 : (s : ℚ) ≤ 2 ^ 53 := by exact_mod_cast hlt.le
  constructor
  · calc (10 : ℚ) ^ (-400 : Int) ≤ 2 ^ minExponent := by
          have hle : 2 ^ 1074 ≤ 10 ^ 400 := by decide +kernel
          rw [minExponent, zpow_neg, zpow_neg]
          exact inv_anti₀ (by positivity) (by exact_mod_cast hle)
      _ ≤ 2 ^ e := zpow_le_zpow_right₀ (by norm_num) hmin
      _ ≤ value s e := le_mul_of_one_le_left hpos.le hs1
  · calc value s e ≤ 2 ^ 53 * 2 ^ e := mul_le_mul_of_nonneg_right hs2 hpos.le
      _ ≤ 2 ^ 53 * 2 ^ maxExponent :=
          mul_le_mul_of_nonneg_left (zpow_le_zpow_right₀ (by norm_num) hmax) (by positivity)
      _ < 10 ^ (400 : Int) := by
          have hlt : 2 ^ 53 * 2 ^ 971 < 10 ^ 400 := by decide +kernel
          rw [maxExponent]
          exact_mod_cast hlt

/-- A numeral whose value is that of a number in normal form is read as this number. -/
theorem ofDecimal_eq_finite (h : (finite negative s e).Canonical) (hvalue : d.value = value s e) :
    ofDecimal negative d = finite negative s e := by
  have hquotient := ofQuotient_eq_finite h d.ratio_pos (d.ratio_div.trans hvalue)
  by_cases hzero : d.digits = 0
  · have hnum : d.ratio.1 = 0 := by
      unfold Decimal.ratio
      split <;> simp [hzero]
    rw [ofDecimal, if_pos (Or.inl hzero), ← hquotient, ofQuotient, if_pos hnum]
  · have hs : s ≠ 0 := by
      rintro rfl
      rw [value, Nat.cast_zero, zero_mul, d.value_eq_zero_iff] at hvalue
      exact hzero hvalue
    obtain ⟨hlow, hhigh⟩ := h.value_bounds hs
    have hmin := lt_of_ten_pow (hvalue ▸ hlow) d.value_lt
    have hmax := lt_of_ten_pow (Decimal.le_value hzero) (hvalue ▸ hhigh)
    simp only [Decimal.magnitude] at hmin hmax
    rw [ofDecimal, if_neg (by omega), if_neg (by omega), hquotient]

/-! ### The numeral of a number -/

theorem ten_pow_decimalMagnitude_le (hn : 0 < num) (hd : 0 < den) :
    (10 : ℚ) ^ (decimalMagnitude num den - 1) ≤ num / den := by
  have hn0 : (0 : ℚ) < num := by exact_mod_cast hn
  have hd0 : (0 : ℚ) < den := by exact_mod_cast hd
  -- below one, the power is told by how often the denominator holds the numerator
  have hbelow {z : Nat} (h : den ≤ num * 10 ^ z) : (10 : ℚ) ^ (-(z : Int)) ≤ num / den := by
    have hcast : (den : ℚ) ≤ num * 10 ^ z := by exact_mod_cast h
    rw [zpow_neg, zpow_natCast, le_div_iff₀ hd0, inv_mul_le_iff₀ (by positivity), mul_comm]
    exact hcast
  unfold decimalMagnitude
  split
  next hle =>
    have hquotient : num / den ≠ 0 := (Nat.div_pos hle hd).ne'
    have hpos := digitCount_pos (num / den)
    have hdigits := ten_pow_le_of_lt_digitCount hquotient (Nat.sub_lt hpos Nat.one_pos)
    have hpower : (digitCount (num / den) : Int) - 1 = (digitCount (num / den) - 1 : Nat) := by
      omega
    rw [hpower, zpow_natCast]
    calc (10 : ℚ) ^ (digitCount (num / den) - 1) ≤ (num / den : Nat) := by exact_mod_cast hdigits
      _ ≤ num / den := Nat.cast_div_le
  next hlt =>
    have hpos := digitCount_pos ((den - 1) / num)
    simp only
    split
    next hfits =>
      have hpower : (2 - (digitCount ((den - 1) / num) : Int) - 1) =
          -((digitCount ((den - 1) / num) - 1 : Nat) : Int) := by
        omega
      rw [hpower]
      exact hbelow hfits
    next =>
      have hpower : (1 - (digitCount ((den - 1) / num) : Int) - 1) =
          -(digitCount ((den - 1) / num) : Int) := by
        omega
      rw [hpower]
      have hdigits := (Nat.div_lt_iff_lt_mul hn).mp (lt_ten_pow_digitCount ((den - 1) / num))
      refine hbelow ?_
      rw [Nat.mul_comm]
      omega

/-- Where the quotient is a multiple of the power of ten, that is its lower neighbour. -/
theorem neighbours_fst_eq (hd : 0 < den) (h : (num / den : ℚ) = k * 10 ^ e) :
    (neighbours num den e).1 = k := by
  have hd0 : (den : ℚ) ≠ 0 := by exact_mod_cast hd.ne'
  rw [div_eq_iff hd0] at h
  unfold neighbours
  split
  next he =>
    have hnum : num = k * (den * 10 ^ e.toNat) := by
      have hcast : (num : ℚ) = k * (den * 10 ^ e.toNat) := by
        rw [h, zpow_eq_pow 10 he]
        ring
      exact_mod_cast hcast
    exact Nat.div_eq_of_eq_mul_left (Nat.mul_pos hd (Nat.pow_pos (by decide))) hnum
  next he =>
    have hnum : num * 10 ^ (-e).toNat = k * den := by
      have hcast : (num : ℚ) * 10 ^ (-e).toNat = k * den := by
        rw [h, zpow_eq_inv_pow 10 he]
        field_simp
      exact_mod_cast hcast
    exact Nat.div_eq_of_eq_mul_left hd hnum

/-- A search that ends at a numeral that is read as the number gives one that is. -/
theorem ofDecimal_shortestFrom (fuel digits : Nat)
    (h : ∀ exponent, exponent = m - (digits + fuel : Nat) →
      ofDecimal false ⟨(neighbours num den exponent).1, exponent⟩ = x) :
    ofDecimal false (shortestFrom x num den m fuel digits) = x := by
  induction fuel generalizing digits with
  | zero => exact h _ rfl
  | succ fuel ih =>
      simp only [shortestFrom]
      split
      next hlower =>
        rw [Bool.and_eq_true] at hlower
        exact of_decide_eq_true hlower.1
      next =>
        split
        next hupper => exact of_decide_eq_true hupper
        next => exact ih (digits + 1) fun exponent he => h exponent (by omega)

theorem ratio_pos (s : Nat) (e : Int) : 0 < (ratio s e).2 := by
  unfold ratio
  split
  · exact Nat.one_pos
  · exact Nat.pow_pos (by decide)

theorem ratio_div (s : Nat) (e : Int) : ((ratio s e).1 / (ratio s e).2 : ℚ) = value s e := by
  unfold ratio value
  split
  next h =>
    rw [zpow_eq_pow 2 h, Nat.cast_one, div_one, Nat.cast_mul]
    exact congrArg _ (Nat.cast_pow 2 _)
  next h =>
    rw [zpow_eq_inv_pow 2 h, ← div_eq_mul_inv]
    exact congrArg _ (Nat.cast_pow 2 _)

/-- The numbers of one exponent are so small that 801 digits in front of this power of ten reach as
far behind the point as their binary digits. -/
theorem two_pow_mul_zpow_le (hmin : minExponent ≤ e) (hmax : e ≤ maxExponent) :
    (2 : ℚ) ^ 53 * 2 ^ e ≤ 10 ^ (801 + min e 0) := by
  rcases le_total 0 e with he | he
  · rw [min_eq_right he, add_zero]
    calc (2 : ℚ) ^ 53 * 2 ^ e ≤ 2 ^ 53 * 2 ^ maxExponent :=
          mul_le_mul_of_nonneg_left (zpow_le_zpow_right₀ (by norm_num) hmax) (by positivity)
      _ ≤ 10 ^ (801 : Int) := by
          have hle : 2 ^ 53 * 2 ^ 971 ≤ 10 ^ 801 := by decide +kernel
          rw [maxExponent]
          exact_mod_cast hle
  · obtain ⟨n, rfl⟩ : ∃ n : Nat, e = -(n : Int) := ⟨(-e).toNat, by omega⟩
    have hn : n ≤ 1074 := by
      rw [minExponent] at hmin
      omega
    have hfive : (2 : ℚ) ^ 53 * 5 ^ n ≤ 10 ^ 801 :=
      calc (2 : ℚ) ^ 53 * 5 ^ n ≤ 2 ^ 53 * 5 ^ 1074 :=
            mul_le_mul_of_nonneg_left (pow_le_pow_right₀ (by norm_num) hn) (by positivity)
        _ ≤ 10 ^ 801 := by
            have hle : 2 ^ 53 * 5 ^ 1074 ≤ 10 ^ 801 := by decide +kernel
            exact_mod_cast hle
    have hten : (10 : ℚ) ^ n = 2 ^ n * 5 ^ n := by
      rw [← mul_pow]
      norm_num
    rw [min_eq_left he, zpow_add₀ (by norm_num), zpow_neg, zpow_neg, zpow_natCast,
      zpow_natCast, ← div_eq_mul_inv, ← div_eq_mul_inv, div_le_div_iff₀ (by positivity)
      (by positivity), hten]
    calc (2 : ℚ) ^ 53 * (2 ^ n * 5 ^ n) = 2 ^ 53 * 5 ^ n * 2 ^ n := by ring
      _ ≤ 10 ^ (801 : Int) * 2 ^ n :=
          mul_le_mul_of_nonneg_right (by exact_mod_cast hfive) (by positivity)

/-- With 801 digits the expansion of a number in normal form is exact. -/
theorem Canonical.exists_expansion (h : (finite negative s e).Canonical)
    (hlow : (10 : ℚ) ^ (m - 1) ≤ value s e) :
    ∃ k : Nat, value s e = k * 10 ^ (m - 801) := by
  obtain ⟨hmin, hmax, hlt, -⟩ := h
  have hpos : (0 : ℚ) < 2 ^ e := zpow_pos (by norm_num) _
  have hhigh : value s e < 2 ^ 53 * 2 ^ e :=
    mul_lt_mul_of_pos_right (by exact_mod_cast hlt) hpos
  -- the digits reach as far behind the point as the binary ones
  obtain ⟨p, hp, hpe⟩ : ∃ p : Nat, m - 801 = -(p : Int) ∧ 0 ≤ p + e := by
    have hm := lt_of_ten_pow hlow (lt_of_lt_of_le hhigh (two_pow_mul_zpow_le hmin hmax))
    exact ⟨(801 - m).toNat, by omega, by omega⟩
  refine ⟨s * (2 ^ (p + e).toNat * 5 ^ p), ?_⟩
  have htwo : (2 : ℚ) ^ e * 2 ^ p = 2 ^ (p + e).toNat := by
    rw [← zpow_natCast, ← zpow_natCast, ← zpow_add₀ (by norm_num), Int.toNat_of_nonneg hpe,
      add_comm]
  have hten : (10 : ℚ) ^ p = 2 ^ p * 5 ^ p := by
    rw [← mul_pow]
    norm_num
  rw [hp, zpow_neg, zpow_natCast, ← div_eq_mul_inv, eq_div_iff (by positivity), value, hten]
  push_cast
  rw [← htwo]
  ring

theorem ofQuotient_signed (h : ofQuotient false num den = finite false s e) :
    ofQuotient negative num den = finite negative s e := by
  unfold ofQuotient zero at h ⊢
  simp only at h ⊢
  split_ifs at h ⊢ <;> cases h <;> rfl

/-- The sign of a numeral is that of the number that it is read as. -/
theorem ofDecimal_signed (h : ofDecimal false d = finite false s e) :
    ofDecimal negative d = finite negative s e := by
  unfold ofDecimal zero at h ⊢
  simp only at h ⊢
  split_ifs at h ⊢
  · cases h
    rfl
  · exact ofQuotient_signed h

/-- The numeral of a number is read back as this number. -/
theorem ofDecimal_shortest (h : (finite negative s e).Canonical) (hs : s ≠ 0) :
    ofDecimal negative (shortest s e) = finite negative s e := by
  have hden := ratio_pos s e
  have hvalue := ratio_div s e
  have hnum : 0 < (ratio s e).1 := by
    unfold ratio
    split
    · exact Nat.mul_pos (Nat.pos_of_ne_zero hs) (Nat.pow_pos (by decide))
    · exact Nat.pos_of_ne_zero hs
  obtain ⟨k, hk⟩ := h.exists_expansion (hvalue ▸ ten_pow_decimalMagnitude_le hnum hden)
  refine ofDecimal_signed (ofDecimal_shortestFrom 800 1 fun exponent hexponent => ?_)
  have hneighbour : (neighbours (ratio s e).1 (ratio s e).2 exponent).1 = k :=
    neighbours_fst_eq hden (by rw [hvalue, hk, hexponent]; rfl)
  refine ofDecimal_eq_finite h ?_
  rw [hneighbour, hk, hexponent]
  rfl

theorem shortest_digits_ne_zero (h : (finite negative s e).Canonical) (hs : s ≠ 0) :
    (shortest s e).digits ≠ 0 := by
  intro hzero
  have hread := ofDecimal_shortest h hs
  rw [ofDecimal, if_pos (Or.inl hzero)] at hread
  cases hread
  exact hs rfl

end ArchiveExport.Binary64
