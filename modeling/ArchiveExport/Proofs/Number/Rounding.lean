import ArchiveExport.Number.Binary32
import Mathlib.Algebra.Order.Field.Power
import Mathlib.Algebra.Order.Field.Rat
import Mathlib.Tactic.FieldSimp
import Mathlib.Tactic.Linarith
import Mathlib.Tactic.NormNum
import Mathlib.Tactic.Ring

/-!
# Rounding to 53 binary digits

A quotient is rounded once, at the exponent where it has 53 binary digits. The result depends on
the value of the quotient alone, it is in normal form, and a value that is a number of that form
already is left as it is. A stored number of 32 bits is widened to one of the same value.
-/

namespace ArchiveExport

namespace Binary64

variable {negative : Bool} {num den num' den' a b c d m s : Nat} {e f : Int} {q : ℚ}

/-- The value of `s * 2 ^ e`. -/
def value (s : Nat) (e : Int) : ℚ :=
  s * 2 ^ e

/-- Normal form: the significand has 53 binary digits, or the exponent is the least one. -/
def Canonical : Binary64 → Prop
  | .finite _ s e =>
    minExponent ≤ e ∧ e ≤ maxExponent ∧ s < Nat.pow 2 53 ∧ (e = minExponent ∨ Nat.pow 2 52 ≤ s)
  | _ => True

theorem canonical_zero (negative : Bool) : (zero negative).Canonical :=
  ⟨le_refl _, by decide, by decide, Or.inl rfl⟩

/-! ### Rounding to a natural number -/

theorem le_roundQuotient (hb : 0 < b) (h : (m : ℚ) ≤ a / b) : m ≤ roundQuotient a b := by
  have hmul : m * b ≤ a := by
    rw [le_div_iff₀ (by exact_mod_cast hb)] at h
    exact_mod_cast h
  have hfloor : m ≤ a / b := (Nat.le_div_iff_mul_le hb).mpr hmul
  simp only [roundQuotient]
  split_ifs <;> omega

theorem roundQuotient_le (hb : 0 < b) (h : (a : ℚ) / b ≤ m) : roundQuotient a b ≤ m := by
  have hmul : a ≤ m * b := by
    rw [div_le_iff₀ (by exact_mod_cast hb)] at h
    exact_mod_cast h
  have hfloor : a / b ≤ m := Nat.div_le_of_le_mul (by rwa [Nat.mul_comm] at hmul)
  -- with something left over, the quotient stays below `m`
  have hrest : 0 < a % b → a / b < m := by
    intro hpos
    have hdivision := Nat.div_add_mod a b
    by_contra hge
    have hbig : b * m ≤ b * (a / b) := Nat.mul_le_mul_left b (Nat.le_of_not_lt hge)
    rw [Nat.mul_comm m b] at hmul
    omega
  simp only [roundQuotient]
  split_ifs <;> omega

theorem roundQuotient_mul_right (hc : 0 < c) :
    roundQuotient (a * c) (b * c) = roundQuotient a b := by
  have hlt : ∀ x y : Nat, x * c < y * c ↔ x < y := fun x y => Nat.mul_lt_mul_right hc
  simp only [roundQuotient, Nat.mul_div_mul_right a b hc, Nat.mul_mod_mul_right c a b,
    ← Nat.mul_assoc 2, hlt]

/-- The quotient alone decides what is rounded to. -/
theorem roundQuotient_congr (hb : 0 < b) (hd : 0 < d) (h : (a : ℚ) / b = c / d) :
    roundQuotient a b = roundQuotient c d := by
  have hcross : a * d = c * b := by
    rw [div_eq_div_iff (by positivity) (by positivity)] at h
    exact_mod_cast h
  rw [← roundQuotient_mul_right hd, hcross, Nat.mul_comm b d, roundQuotient_mul_right hb]

/-! ### The exponent of a quotient -/

theorem scale_pos (num : Nat) (hd : 0 < den) (e : Int) : 0 < (scale num den e).2 := by
  unfold scale
  split
  · exact Nat.mul_pos hd (Nat.pow_pos (by decide))
  · exact hd

theorem zpow_eq_pow (q : ℚ) (he : 0 ≤ e) : q ^ e = q ^ e.toNat := by
  rw [← zpow_natCast, Int.toNat_of_nonneg he]

theorem zpow_eq_inv_pow (q : ℚ) (he : ¬ 0 ≤ e) : q ^ e = (q ^ (-e).toNat)⁻¹ := by
  rw [← zpow_natCast, Int.toNat_of_nonneg (by omega), zpow_neg, inv_inv]

theorem scale_div (num den : Nat) (e : Int) :
    ((scale num den e).1 : ℚ) / (scale num den e).2 = num / den / 2 ^ e := by
  unfold scale
  split
  next he =>
    rw [zpow_eq_pow 2 he, div_div, Nat.pow_eq, Nat.cast_mul, Nat.cast_pow, Nat.cast_ofNat]
  next he =>
    rw [zpow_eq_inv_pow 2 he, div_inv_eq_mul, Nat.pow_eq, Nat.cast_mul, Nat.cast_pow,
      Nat.cast_ofNat, div_mul_eq_mul_div]

/-- At this exponent a quotient has 53 binary digits in front of the point. -/
def Spans (q : ℚ) (e : Int) : Prop :=
  2 ^ 52 * 2 ^ e ≤ q ∧ q < 2 ^ 53 * 2 ^ e

theorem two_pow_mul_zpow (n : Nat) (e : Int) : (2 : ℚ) ^ n * 2 ^ e = 2 ^ (n + e) := by
  rw [zpow_add₀ (by decide), zpow_natCast]

theorem lt_add_one_of_zpow (h : 2 ^ 52 * 2 ^ e ≤ q) (h' : q < 2 ^ 53 * 2 ^ f) : e < f + 1 := by
  have hlt := lt_of_le_of_lt h h'
  rw [two_pow_mul_zpow, two_pow_mul_zpow, zpow_lt_zpow_iff_right₀ (by norm_num)] at hlt
  push_cast at hlt
  omega

theorem Spans.unique (h : Spans q e) (h' : Spans q f) : e = f := by
  have hle := lt_add_one_of_zpow h.1 h'.2
  have hge := lt_add_one_of_zpow h'.1 h.2
  omega

theorem exists_spans_exponentOf (hn : 0 < num) (hd : 0 < den) :
    ∃ e, Spans (num / den) e ∧ exponentOf num den = max minExponent e := by
  have hn0 : (0 : ℚ) < num := by exact_mod_cast hn
  have hd0 : (0 : ℚ) < den := by exact_mod_cast hd
  have hnlow : (2 : ℚ) ^ num.log2 ≤ num := by exact_mod_cast Nat.log2_self_le hn.ne'
  have hnhigh : (num : ℚ) < 2 ^ (num.log2 + 1) := by exact_mod_cast Nat.lt_log2_self
  have hdlow : (2 : ℚ) ^ den.log2 ≤ den := by exact_mod_cast Nat.log2_self_le hd.ne'
  have hdhigh : (den : ℚ) < 2 ^ (den.log2 + 1) := by exact_mod_cast Nat.lt_log2_self
  -- the guess from the numbers of binary digits is right or one too high
  set guess : Int := (num.log2 : Int) - den.log2 - 52 with hguess
  have hsplit : (2 : ℚ) ^ guess * 2 ^ den.log2 * 2 ^ 52 = 2 ^ num.log2 := by
    rw [← zpow_natCast, ← zpow_natCast, ← zpow_natCast, ← zpow_add₀ (by decide),
      ← zpow_add₀ (by decide), hguess]
    congr 1
    push_cast
    omega
  have hpos : (0 : ℚ) < 2 ^ guess := zpow_pos (by norm_num) _
  have hlow : 2 ^ 51 * 2 ^ guess ≤ (num / den : ℚ) := by
    rw [le_div_iff₀ hd0]
    rw [pow_succ] at hdhigh
    nlinarith
  have hhigh : (num / den : ℚ) < 2 ^ 53 * 2 ^ guess := by
    rw [div_lt_iff₀ hd0]
    rw [pow_succ] at hnhigh
    nlinarith
  have hscaled : (scale num den guess).1 / (scale num den guess).2 < Nat.pow 2 52 ↔
      (num / den : ℚ) < 2 ^ 52 * 2 ^ guess := by
    rw [Nat.div_lt_iff_lt_mul (scale_pos num hd guess), ← div_lt_iff₀ hpos, ← scale_div,
      div_lt_iff₀ (by exact_mod_cast scale_pos num hd guess)]
    norm_cast
  have hstep : (2 : ℚ) ^ (guess - 1) = 2 ^ guess * 2⁻¹ := zpow_sub_one₀ two_ne_zero guess
  by_cases hcase : (num / den : ℚ) < 2 ^ 52 * 2 ^ guess
  · refine ⟨guess - 1, ⟨?_, ?_⟩, ?_⟩
    · linarith
    · linarith
    · exact congrArg (max minExponent) (if_pos (hscaled.mpr hcase))
  · exact ⟨guess, ⟨le_of_not_gt hcase, hhigh⟩,
      congrArg (max minExponent) (if_neg (mt hscaled.mp hcase))⟩

theorem exponentOf_of_spans (hn : 0 < num) (hd : 0 < den) (h : Spans (num / den) e) :
    exponentOf num den = max minExponent e := by
  obtain ⟨f, hf, heq⟩ := exists_spans_exponentOf hn hd
  rw [heq, hf.unique h]

/-! ### Rounding to a number -/

theorem ofQuotient_congr (hd : 0 < den) (hd' : 0 < den') (h : (num / den : ℚ) = num' / den') :
    ofQuotient negative num den = ofQuotient negative num' den' := by
  have hzero : num = 0 ↔ num' = 0 := by
    have hcross : num * den' = num' * den := by
      rw [div_eq_div_iff (by positivity) (by positivity)] at h
      exact_mod_cast h
    constructor
    · rintro rfl
      simpa [hd.ne'] using hcross
    · rintro rfl
      simpa [hd'.ne'] using hcross
  by_cases hnum : num = 0
  · rw [ofQuotient, ofQuotient, if_pos hnum, if_pos (hzero.mp hnum)]
  · have hn : 0 < num := Nat.pos_of_ne_zero hnum
    have hn' : 0 < num' := Nat.pos_of_ne_zero (mt hzero.mpr hnum)
    have hexponent : exponentOf num den = exponentOf num' den' := by
      obtain ⟨e, hspans, heq⟩ := exists_spans_exponentOf hn hd
      rw [heq, exponentOf_of_spans hn' hd' (h ▸ hspans)]
    have hround : ∀ e, roundQuotient (scale num den e).1 (scale num den e).2 =
        roundQuotient (scale num' den' e).1 (scale num' den' e).2 := fun e =>
      roundQuotient_congr (scale_pos num hd e) (scale_pos num' hd' e)
        (by rw [scale_div, scale_div, h])
    simp only [ofQuotient, if_neg hnum, if_neg (mt hzero.mpr hnum), hexponent, hround]

theorem canonical_ofQuotient (negative : Bool) (num : Nat) (hd : 0 < den) :
    (ofQuotient negative num den).Canonical := by
  by_cases hnum : num = 0
  · rw [ofQuotient, if_pos hnum]
    exact canonical_zero negative
  obtain ⟨e, ⟨hlow, hhigh⟩, hexponent⟩ := exists_spans_exponentOf (Nat.pos_of_ne_zero hnum) hd
  have hpos : (0 : ℚ) < 2 ^ exponentOf num den := zpow_pos (by norm_num) _
  have hscale := scale_pos num hd (exponentOf num den)
  simp only [ofQuotient, if_neg hnum]
  generalize hround : roundQuotient (scale num den (exponentOf num den)).1
    (scale num den (exponentOf num den)).2 = significand
  have hle : significand ≤ Nat.pow 2 53 := by
    rw [← hround]
    refine roundQuotient_le hscale ?_
    have hmono : (2 : ℚ) ^ e ≤ 2 ^ exponentOf num den :=
      zpow_le_zpow_right₀ (by norm_num) (hexponent ▸ le_max_right _ _)
    rw [scale_div, div_le_iff₀ hpos]
    push_cast [Nat.pow_eq]
    linarith
  have hge : exponentOf num den = minExponent ∨ Nat.pow 2 52 ≤ significand := by
    refine (max_choice minExponent e).imp hexponent.trans fun he => ?_
    rw [← hround]
    refine le_roundQuotient hscale ?_
    rw [scale_div, le_div_iff₀ hpos, hexponent, he]
    push_cast [Nat.pow_eq]
    exact hlow
  have hmin : minExponent ≤ exponentOf num den := hexponent ▸ le_max_left _ _
  by_cases hfull : significand = Nat.pow 2 53
  · simp only [if_pos hfull]
    split
    · trivial
    · next hmax => exact ⟨by omega, Int.not_lt.mp hmax, by decide, Or.inr (le_refl _)⟩
  · simp only [if_neg hfull]
    split
    · trivial
    · next hmax => exact ⟨hmin, Int.not_lt.mp hmax, lt_of_le_of_ne hle hfull, hge⟩

/-- The exponent of a value that is a number in normal form is that of the number. -/
theorem exponentOf_eq (h : (finite negative s e).Canonical) (hnum : 0 < num) (hd : 0 < den)
    (hvalue : (num / den : ℚ) = value s e) : exponentOf num den = e := by
  obtain ⟨hmin, hmax, hlt, hform⟩ := h
  have hpos : (0 : ℚ) < 2 ^ e := zpow_pos (by norm_num) _
  obtain ⟨f, hspans, heq⟩ := exists_spans_exponentOf hnum hd
  rw [hvalue, value] at hspans
  have hupper : (s : ℚ) * 2 ^ e < 2 ^ 53 * 2 ^ e :=
    mul_lt_mul_of_pos_right (by exact_mod_cast hlt) hpos
  have hfe := lt_add_one_of_zpow hspans.1 hupper
  have hef : e = minExponent ∨ e < f + 1 := hform.imp_right fun hbig =>
    lt_add_one_of_zpow (mul_le_mul_of_nonneg_right (by exact_mod_cast hbig) hpos.le) hspans.2
  omega

/-- A value that is a number in normal form is not rounded. -/
theorem ofQuotient_eq_finite (h : (finite negative s e).Canonical) (hd : 0 < den)
    (hvalue : (num / den : ℚ) = value s e) : ofQuotient negative num den = finite negative s e := by
  have hpos : (0 : ℚ) < 2 ^ e := zpow_pos (by norm_num) _
  have hden : (0 : ℚ) < den := by exact_mod_cast hd
  by_cases hs : s = 0
  · have hnum : num = 0 := by
      rw [hs, value, Nat.cast_zero, zero_mul, div_eq_zero_iff] at hvalue
      simpa [hden.ne'] using hvalue
    obtain ⟨-, -, -, hform⟩ := h
    have he : e = minExponent := hform.resolve_right (by rw [hs]; decide)
    rw [ofQuotient, if_pos hnum, hs, he, zero]
  · have hnum : num ≠ 0 := by
      rintro rfl
      rw [value, Nat.cast_zero, zero_div, eq_comm, mul_eq_zero] at hvalue
      simp [hs, hpos.ne'] at hvalue
    have hexponent := exponentOf_eq h (Nat.pos_of_ne_zero hnum) hd hvalue
    have hscaled : ((scale num den e).1 / (scale num den e).2 : ℚ) = s := by
      rw [scale_div, hvalue, value, mul_div_cancel_right₀ _ hpos.ne']
    have hround : roundQuotient (scale num den e).1 (scale num den e).2 = s :=
      le_antisymm (roundQuotient_le (scale_pos num hd e) hscaled.le)
        (le_roundQuotient (scale_pos num hd e) hscaled.ge)
    obtain ⟨-, hmax, hlt, -⟩ := h
    simp only [ofQuotient, if_neg hnum, hexponent, hround, if_neg hlt.ne,
      if_neg (Int.not_lt.mpr hmax)]

/-- A significand is doubled where its exponent is one less. -/
theorem value_two_mul (m : Nat) (e : Int) : value (2 * m) (e - 1) = value m e := by
  rw [value, value, zpow_sub_one₀ two_ne_zero]
  push_cast
  ring

/-- A value with at most 53 binary digits in front of the least exponent is that of a number in
normal form. -/
theorem exists_canonical (negative : Bool) (hm : m < Nat.pow 2 53) (hmin : minExponent ≤ e)
    (hmax : e ≤ maxExponent) :
    ∃ s f, (finite negative s f).Canonical ∧ value s f = value m e := by
  -- doubling the significand until it has 53 digits or the exponent is the least one
  obtain ⟨n, hn⟩ : ∃ n : Nat, e = minExponent + n := ⟨(e - minExponent).toNat, by omega⟩
  induction n generalizing m e with
  | zero => exact ⟨m, e, ⟨hmin, hmax, hm, Or.inl (by omega)⟩, rfl⟩
  | succ n ih =>
      by_cases hbig : Nat.pow 2 52 ≤ m
      · exact ⟨m, e, ⟨hmin, hmax, hm, Or.inr hbig⟩, rfl⟩
      · have hdouble : 2 * m < Nat.pow 2 53 := by
          rw [Nat.pow_eq] at hbig ⊢
          omega
        obtain ⟨s, f, hcanonical, hvalue⟩ :=
          ih hdouble (e := e - 1) (by omega) (by omega) (by omega)
        exact ⟨s, f, hcanonical, hvalue.trans (value_two_mul m e)⟩

end Binary64

/-! ### Stored numbers of 32 bits -/

namespace Binary32

open Binary64 (Canonical value maxExponent minExponent)

variable {x : Binary32} {v : Binary64}

/-- The significand and the exponent of a stored number: the bit in front of the point is stored
as an exponent that is not zero. -/
def parts (x : Binary32) : Nat × Int :=
  if x.storedExponent = 0 then (x.storedSignificand, -149)
  else (Nat.pow 2 23 + x.storedSignificand, x.storedExponent - 150)

/-- The stored number is this finite number: it has its sign and its value. -/
structure Stores (x : Binary32) (v : Binary64) : Prop where
  finite : x.storedExponent ≠ 255
  canonical : v.Canonical
  same : ∃ s e, v = .finite x.isNegative s e ∧ value s e = value x.parts.1 x.parts.2

theorem toBinary64_eq_ofQuotient (h : x.storedExponent ≠ 255) :
    ∃ num den, 0 < den ∧ x.toBinary64 = .ofQuotient x.isNegative num den ∧
      (num / den : ℚ) = value x.parts.1 x.parts.2 := by
  unfold toBinary64 parts value
  rw [if_neg h]
  split
  next => exact ⟨_, _, by decide, rfl, by norm_num [zpow_neg, div_eq_mul_inv]⟩
  next =>
    simp only
    split
    next hlarge =>
      refine ⟨_, _, by decide, rfl, ?_⟩
      have hpow : (2 : ℚ) ^ ((x.storedExponent : Int) - 150) = 2 ^ (x.storedExponent - 150) := by
        rw [← zpow_natCast, Nat.cast_sub hlarge, Nat.cast_ofNat]
      rw [hpow, Nat.cast_one, div_one, Nat.cast_mul]
      exact congrArg _ (Nat.cast_pow 2 _)
    next hsmall =>
      refine ⟨_, _, Nat.pow_pos (by decide), rfl, ?_⟩
      have hpow : (2 : ℚ) ^ ((x.storedExponent : Int) - 150) =
          (2 ^ (150 - x.storedExponent))⁻¹ := by
        rw [← zpow_natCast, ← zpow_neg, Nat.cast_sub (Nat.le_of_not_le hsmall), Nat.cast_ofNat,
          neg_sub]
      rw [hpow, ← div_eq_mul_inv]
      exact congrArg _ (Nat.cast_pow 2 _)

/-- A stored number is widened to the number that it is. -/
theorem Stores.toBinary64_eq (h : x.Stores v) : x.toBinary64 = v := by
  obtain ⟨num, den, hden, heq, hvalue⟩ := toBinary64_eq_ofQuotient h.finite
  obtain ⟨s, e, rfl, hsame⟩ := h.same
  rw [heq, Binary64.ofQuotient_eq_finite h.canonical hden (hvalue.trans hsame.symm)]

/-- Each finite stored number is the number that it is widened to. -/
theorem stores_toBinary64 (h : x.storedExponent ≠ 255) : x.Stores x.toBinary64 := by
  have hexponent : x.storedExponent < Nat.pow 2 8 := Nat.mod_lt _ (by decide)
  have hsignificand : x.storedSignificand < Nat.pow 2 23 := Nat.mod_lt _ (by decide)
  rw [Nat.pow_eq] at hexponent hsignificand
  have hparts : x.parts.1 < Nat.pow 2 53 ∧ minExponent ≤ x.parts.2 ∧
      x.parts.2 ≤ maxExponent := by
    unfold parts minExponent maxExponent
    rw [Nat.pow_eq, Nat.pow_eq]
    split <;> refine ⟨?_, ?_, ?_⟩ <;> simp only <;> omega
  obtain ⟨s, e, hcanonical, hvalue⟩ :=
    Binary64.exists_canonical x.isNegative hparts.1 hparts.2.1 hparts.2.2
  have hstores : x.Stores (.finite x.isNegative s e) := ⟨h, hcanonical, s, e, rfl, hvalue⟩
  rwa [hstores.toBinary64_eq]

theorem canonical_toBinary64 (x : Binary32) : x.toBinary64.Canonical := by
  by_cases h : x.storedExponent = 255
  · rw [toBinary64, if_pos h]
    split <;> trivial
  · obtain ⟨num, den, hden, heq, -⟩ := toBinary64_eq_ofQuotient h
    rw [heq]
    exact Binary64.canonical_ofQuotient _ num hden

end Binary32

end ArchiveExport
