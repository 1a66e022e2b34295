import ArchiveExport.Json.Printer
import ArchiveExport.Proofs.Json.Grammar
import ArchiveExport.Proofs.Number.Decimal
import Mathlib.Data.List.Induction

/-!
# Numerals that are written

A numeral that is written has digits in front of the point, perhaps digits behind it, and perhaps an
exponent with its sign. It is a numeral of the grammar and it is read back by its parts: the numeral
of an integer as this integer, that of a number as this number.
-/

namespace ArchiveExport.Json

open Binary64 (Decimal natDigits)

variable {τ : Type} {cs ds rest : List Char} {c : Char} {negative : Bool} {n s : Nat} {e : Int}

/-! ### Digits -/

theorem isDigit_of_mem_toDigits (h : c ∈ Nat.toDigits 10 n) : isDigit c = true := by
  have hdigit := Nat.isDigit_of_mem_toDigits (by decide) (by decide) h
  simpa [Char.isDigit, isDigit, UInt32.le_iff_toNat_le] using hdigit

theorem isDigits_toDigits (n : Nat) : IsDigits (Nat.toDigits 10 n) :=
  ⟨Nat.toDigits_ne_nil, fun _ => isDigit_of_mem_toDigits⟩

theorem digitsValue_toDigits (n : Nat) : digitsValue (Nat.toDigits 10 n) = n :=
  Nat.ofDigitChars_toDigits (by decide) (by decide)

/-- Only the numeral of zero starts with a zero. -/
theorem head?_toDigits_ne (hn : n ≠ 0) : (Nat.toDigits 10 n).head? ≠ some '0' := by
  induction n using Nat.strongRecOn with
  | ind n ih =>
    rw [Nat.toDigits_eq_if (by decide)]
    split
    next hsmall =>
      have hall : ∀ k < 10, k ≠ 0 → k.digitChar ≠ '0' := by decide
      simpa using hall n hsmall hn
    next hlarge =>
      rw [List.head?_append_of_ne_nil _ Nat.toDigits_ne_nil]
      exact ih (n / 10) (by omega) (by omega)

theorem isWhole_toDigits (n : Nat) : IsWhole (Nat.toDigits 10 n) := by
  refine ⟨isDigits_toDigits n, fun hzero => ?_⟩
  by_cases hn : n = 0
  · rw [hn]
    rfl
  · exact absurd hzero (head?_toDigits_ne hn)

theorem digitsValue_concat (ds : List Char) (c : Char) :
    digitsValue (ds ++ [c]) = 10 * digitsValue ds + (c.toNat - 48) :=
  List.foldl_append

theorem digitsValue_append (cs ds : List Char) :
    digitsValue (cs ++ ds) = digitsValue cs * 10 ^ ds.length + digitsValue ds := by
  induction ds using List.reverseRecOn with
  | nil => simp [digitsValue]
  | append_singleton ds c ih =>
      rw [← List.append_assoc, digitsValue_concat, digitsValue_concat, ih, List.length_append,
        List.length_singleton, pow_succ]
      ring

theorem digitsValue_zeros (k : Nat) : digitsValue (List.replicate k '0') = 0 := by
  induction k with
  | zero => rfl
  | succ k ih => exact ih

/-! ### Where digits end -/

/-- What follows goes on with no digit. -/
def EndsDigits (rest : List Char) : Prop :=
  ∀ c, rest.head? = some c → isDigit c = false

/-- What follows goes on with nothing that belongs to a numeral. -/
def EndsNumeral (rest : List Char) : Prop :=
  ∀ c, rest.head? = some c → isDigit c = false ∧ c ≠ '.' ∧ c ≠ 'e' ∧ c ≠ 'E'

theorem EndsNumeral.endsDigits (h : EndsNumeral rest) : EndsDigits rest :=
  fun c hc => (h c hc).1

theorem endsDigits_cons (h : isDigit c = false) : EndsDigits (c :: rest) := by
  intro d hd
  rw [List.head?_cons, Option.some.injEq] at hd
  rw [← hd, h]

theorem takeWhile_digits (hds : ∀ c ∈ ds, isDigit c = true) (hrest : EndsDigits rest) :
    (ds ++ rest).takeWhile isDigit = ds := by
  have hnone : rest.takeWhile isDigit = [] := by
    cases rest with
    | nil => rfl
    | cons c rest => exact List.takeWhile_cons_of_neg (by simp [hrest c rfl])
  rw [List.takeWhile_append_of_pos hds, hnone, List.append_nil]

theorem dropWhile_digits (hds : ∀ c ∈ ds, isDigit c = true) (hrest : EndsDigits rest) :
    (ds ++ rest).dropWhile isDigit = rest := by
  have hsplit := List.takeWhile_append_dropWhile (p := isDigit) (l := ds ++ rest)
  rw [takeWhile_digits hds hrest] at hsplit
  exact List.append_cancel_left hsplit

theorem wholePart_append (h : IsWhole cs) (hrest : EndsDigits rest) :
    wholePart (cs ++ rest) = (cs, rest) := by
  obtain ⟨⟨hne, hdigits⟩, hzero⟩ := h
  cases cs with
  | nil => exact absurd rfl hne
  | cons c cs =>
      by_cases hc : c = '0'
      · rw [hzero (by rw [hc]; rfl)]
        rfl
      · unfold wholePart
        split
        next heq => exact absurd (List.cons.inj heq).1 hc
        next => rw [takeWhile_digits hdigits hrest, dropWhile_digits hdigits hrest]

/-! ### The parts of a numeral -/

/-- The parts of a numeral: the digits before and behind the point, and the digits of an exponent
with its sign. -/
structure Numeral where
  whole : List Char
  fraction : List Char := []
  power : Option (Bool × List Char) := none

namespace Numeral

variable {m : Numeral} {fraction : List Char} {power : Option (Bool × List Char)}

/-- The sign in front of a numeral. -/
def signText (negative : Bool) : List Char :=
  if negative then ['-'] else []

/-- The text from the point on. -/
def fractionText (ds : List Char) : List Char :=
  if ds.isEmpty then [] else '.' :: ds

/-- The text of an exponent. -/
def powerText : Option (Bool × List Char) → List Char
  | none => []
  | some (negative, ds) => 'e' :: (if negative then '-' else '+') :: ds

/-- The number that an exponent spells. -/
def powerValue : Option (Bool × List Char) → Int
  | none => 0
  | some (negative, ds) => if negative then -(digitsValue ds : Int) else digitsValue ds

/-- The text of a numeral. -/
def text (m : Numeral) : List Char :=
  m.whole ++ (fractionText m.fraction ++ powerText m.power)

/-- The digits of a numeral as one number, and the power of ten that they count. -/
def decimal (m : Numeral) : Binary64.Decimal :=
  ⟨digitsValue (m.whole ++ m.fraction), powerValue m.power - m.fraction.length⟩

/-- All parts are digits. -/
structure IsFormed (m : Numeral) : Prop where
  whole : IsWhole m.whole
  fraction : ∀ c ∈ m.fraction, isDigit c = true
  power : ∀ p, m.power = some p → IsDigits p.2

/-- There is a point or an exponent. -/
def IsReal (m : Numeral) : Prop :=
  m.fraction ≠ [] ∨ m.power ≠ none

theorem isFraction_fractionText (h : ∀ c ∈ fraction, isDigit c = true) :
    IsFraction (fractionText fraction) := by
  cases fraction with
  | nil => exact .none
  | cons c cs => exact .digits ⟨List.cons_ne_nil c cs, h⟩

theorem isExponent_powerText (h : ∀ p, power = some p → IsDigits p.2) :
    IsExponent (powerText power) := by
  rcases power with _ | ⟨negative, ds⟩
  · exact .none
  · have hsign : ∀ b : Bool, [if b then '-' else '+'] = [] ∨ [if b then '-' else '+'] = ['+'] ∨
        [if b then '-' else '+'] = ['-'] := by decide
    exact .digits (Or.inl rfl) (hsign negative) (h _ rfl)

/-- A numeral that is written is one of the grammar. -/
theorem IsFormed.isNumeral (h : m.IsFormed) (negative : Bool) :
    IsNumeral (signText negative ++ m.text) := by
  refine .parts ?_ h.whole (isFraction_fractionText h.fraction) (isExponent_powerText h.power)
  cases negative
  · exact Or.inl rfl
  · exact Or.inr rfl

/-! ### Reading the parts back -/

theorem endsDigits_powerText (hrest : EndsNumeral rest) : EndsDigits (powerText power ++ rest) := by
  rcases power with _ | ⟨negative, ds⟩
  · exact hrest.endsDigits
  · exact endsDigits_cons (by decide)

theorem endsDigits_fractionText (hrest : EndsDigits rest) :
    EndsDigits (fractionText fraction ++ rest) := by
  cases fraction with
  | nil => exact hrest
  | cons c cs => exact endsDigits_cons (by decide)

theorem fractionPart_append (h : ∀ c ∈ fraction, isDigit c = true) (hrest : EndsDigits rest)
    (hpoint : fraction = [] → rest.head? ≠ some '.') :
    fractionPart (fractionText fraction ++ rest) = (fraction, rest) := by
  cases fraction with
  | nil =>
      change fractionPart rest = ([], rest)
      unfold fractionPart
      split
      next => exact absurd rfl (hpoint rfl)
      next => rfl
  | cons c cs =>
      have htake := takeWhile_digits h hrest
      rw [fractionText, if_neg (by simp), List.cons_append, fractionPart]
      simp only [htake, List.isEmpty_cons, Bool.false_eq_true, if_false, List.drop_left]

theorem exponentPart_append (h : ∀ p, power = some p → IsDigits p.2) (hrest : EndsNumeral rest) :
    exponentPart (powerText power ++ rest) = power.map fun p => (powerValue (some p), rest) := by
  rcases power with _ | ⟨negative, ds⟩
  · rw [powerText, List.nil_append]
    cases rest with
    | nil => rfl
    | cons c rest =>
        obtain ⟨-, -, he, hE⟩ := hrest c rfl
        exact if_neg (not_or.mpr ⟨he, hE⟩)
  · obtain ⟨hne, hdigits⟩ := h _ rfl
    have htake := takeWhile_digits hdigits hrest.endsDigits
    have hempty : ds.isEmpty = false := by
      rw [List.isEmpty_eq_false_iff]
      exact hne
    cases negative
    · simp only [powerText, List.cons_append, exponentPart, true_or, if_true, Bool.false_eq_true,
        if_false, htake, hempty, List.drop_left, Option.map_some, powerValue]
    · simp only [powerText, List.cons_append, exponentPart, true_or, if_true, Bool.false_eq_true,
        if_false, htake, hempty, List.drop_left, Option.map_some, powerValue]

/-- The value that a numeral is read as. -/
def json (m : Numeral) (negative : Bool) : Json τ :=
  if m.fraction.isEmpty && m.power.isNone then
    .integer (if negative then -(digitsValue m.whole : Int) else digitsValue m.whole)
  else .real (.ofDecimal negative m.decimal)

theorem IsFormed.text_eq_cons (h : m.IsFormed) :
    ∃ c cs, m.text = c :: cs ∧ isDigit c = true := by
  obtain ⟨⟨hne, hdigits⟩, -⟩ := h.whole
  obtain ⟨c, cs, hcs⟩ := List.exists_cons_of_ne_nil hne
  refine ⟨c, cs ++ (fractionText m.fraction ++ powerText m.power), by rw [text, hcs]; rfl, ?_⟩
  exact hdigits c (by simp [hcs])

/-- A numeral is read back by its parts. -/
theorem IsFormed.readNumber_eq (h : m.IsFormed)
    (hshort : m.IsReal ∨ m.whole.length ≤ maxDigits) (hrest : EndsNumeral rest) (negative : Bool) :
    readNumber (signText negative ++ (m.text ++ rest)) =
      .ok ((m.json negative : Json τ), rest) := by
  obtain ⟨c, cs, hcs, hc⟩ := h.text_eq_cons
  have hminus : isDigit '-' = false := by decide
  have hsign : ((signText negative ++ (m.text ++ rest)).head? = some '-') = (negative = true) := by
    cases negative
    · have hne : c ≠ '-' := fun heq => by
        rw [heq, hminus] at hc
        exact absurd hc (by decide)
      simpa [signText, hcs] using hne
    · simp [signText]
  have hbody : (if negative = true then (signText negative ++ (m.text ++ rest)).drop 1
      else signText negative ++ (m.text ++ rest)) = m.text ++ rest := by
    cases negative <;> rfl
  have hwhole : wholePart (m.text ++ rest) =
      (m.whole, fractionText m.fraction ++ (powerText m.power ++ rest)) := by
    rw [text, List.append_assoc, List.append_assoc]
    exact wholePart_append h.whole (endsDigits_fractionText (endsDigits_powerText hrest))
  have hpowerEnds : EndsDigits (powerText m.power ++ rest) := endsDigits_powerText hrest
  have hfraction := fractionPart_append h.fraction hpowerEnds
    (by
      intro _ hpoint
      rcases hpower : m.power with _ | ⟨_, ds⟩
      · rw [hpower] at hpoint
        exact (hrest '.' hpoint).2.1 rfl
      · rw [hpower] at hpoint
        simp [powerText] at hpoint)
  have hempty : m.whole.isEmpty = false := by
    rw [List.isEmpty_eq_false_iff]
    exact h.whole.1.1
  unfold readNumber
  simp only [hsign, hbody, hwhole, hfraction, hempty, exponentPart_append h.power hrest,
    Bool.decide_eq_true, Bool.false_eq_true, if_false]
  rcases hpower : m.power with _ | p
  · cases hdigits : m.fraction with
    | nil =>
        have hlength : m.whole.length ≤ maxDigits :=
          hshort.resolve_left (not_or.mpr ⟨not_not.mpr hdigits, not_not.mpr hpower⟩)
        simp [json, hpower, hdigits, powerText, Nat.not_lt.mpr hlength]
    | cons c cs => simp [json, hpower, hdigits, decimal, powerText, powerValue]
  · simp [json, hpower, decimal]

/-! ### The numerals that are written -/

/-- The numeral of an integer. -/
def ofNat (n : Nat) : Numeral where
  whole := Nat.toDigits 10 n

theorem isFormed_ofNat (n : Nat) : (ofNat n).IsFormed where
  whole := isWhole_toDigits n
  fraction := fun _ hc => absurd hc List.not_mem_nil
  power := fun _ hp => absurd hp (by simp [ofNat])

theorem writeInteger_eq (n : Int) :
    writeInteger n = signText (decide (n < 0)) ++ (ofNat n.natAbs).text := by
  have htext : (ofNat n.natAbs).text = Nat.toDigits 10 n.natAbs := List.append_nil _
  rw [writeInteger, htext]
  by_cases h : n < 0
  · rw [if_pos h, signText, decide_eq_true h]
    rfl
  · rw [if_neg h, signText, decide_eq_false h]
    rfl

theorem json_ofNat (n : Int) :
    (ofNat n.natAbs).json (decide (n < 0)) = (.integer n : Json τ) := by
  simp only [json, ofNat, List.isEmpty_nil, Option.isNone_none, Bool.and_self, if_true,
    digitsValue_toDigits, decide_eq_true_eq]
  congr 1
  split <;> omega

/-- A numeral of a number: its text, and the value of the decimal. -/
structure Writes (m : Numeral) (text : List Char) (d : Decimal) : Prop where
  formed : m.IsFormed
  real : m.IsReal
  text_eq : m.text = text
  value_eq : m.decimal.value = d.value

section Forms

variable {d : Decimal}

theorem isWhole_zero : IsWhole ['0'] :=
  isWhole_toDigits 0

theorem isDigit_of_mem_zeros {k : Nat} (h : c ∈ List.replicate k '0') : isDigit c = true := by
  rw [List.eq_of_mem_replicate h]
  rfl

/-- A number below one, with zeros behind the point. -/
theorem writes_below (d : Decimal) (h : (natDigits d.digits).length + d.exponent ≤ 0) :
    Writes ⟨['0'], List.replicate (-((natDigits d.digits).length + d.exponent)).toNat '0' ++
        natDigits d.digits, none⟩
      ('0' :: '.' :: List.replicate (-((natDigits d.digits).length + d.exponent)).toNat '0' ++
        natDigits d.digits) d := by
  generalize hk : (-((natDigits d.digits).length + d.exponent)).toNat = k
  have hne : natDigits d.digits ≠ [] := Nat.toDigits_ne_nil
  refine ⟨⟨isWhole_zero, ?_, ?_⟩, Or.inl (by simp [hne]), ?_, ?_⟩
  · intro c hc
    rcases List.mem_append.mp hc with hzero | hdigit
    · exact isDigit_of_mem_zeros hzero
    · exact isDigit_of_mem_toDigits hdigit
  · intro p hp
    cases hp
  · simp [text, fractionText, powerText, hne]
  · have hdigits : digitsValue (['0'] ++ (List.replicate k '0' ++ natDigits d.digits)) =
        d.digits := by
      rw [← List.append_assoc, digitsValue_append, List.singleton_append, ← List.replicate_succ,
        digitsValue_zeros, natDigits, digitsValue_toDigits, Nat.zero_mul, Nat.zero_add]
    have hexponent : powerValue none -
        ((List.replicate k '0' ++ natDigits d.digits).length : Int) = d.exponent := by
      rw [powerValue, List.length_append, List.length_replicate]
      omega
    rw [decimal, hdigits, hexponent]

/-- A whole number, with zeros in front of the point and one behind it. -/
theorem writes_integral (hd : d.digits ≠ 0) (h : 0 < (natDigits d.digits).length + d.exponent)
    (hlong : (natDigits d.digits).length ≤ ((natDigits d.digits).length + d.exponent).toNat) :
    Writes ⟨natDigits d.digits ++ List.replicate (((natDigits d.digits).length +
        d.exponent).toNat - (natDigits d.digits).length) '0', ['0'], none⟩
      (natDigits d.digits ++ List.replicate (((natDigits d.digits).length +
        d.exponent).toNat - (natDigits d.digits).length) '0' ++ ['.', '0']) d := by
  generalize hk : ((natDigits d.digits).length + d.exponent).toNat -
    (natDigits d.digits).length = k
  have hne : natDigits d.digits ≠ [] := Nat.toDigits_ne_nil
  refine ⟨⟨⟨⟨by simp [hne], ?_⟩, ?_⟩, ?_, ?_⟩, Or.inl (by simp), ?_, ?_⟩
  · intro c hc
    rcases List.mem_append.mp hc with hdigit | hzero
    · exact isDigit_of_mem_toDigits hdigit
    · exact isDigit_of_mem_zeros hzero
  · intro hzero
    rw [List.head?_append_of_ne_nil _ hne] at hzero
    exact absurd hzero (head?_toDigits_ne hd)
  · intro c hc
    exact isDigit_of_mem_zeros (k := 1) hc
  · intro p hp
    cases hp
  · rfl
  · have hdigits : digitsValue (natDigits d.digits ++ List.replicate k '0' ++ ['0']) =
        d.digits * 10 ^ (k + 1) := by
      rw [List.append_assoc, ← List.replicate_succ', digitsValue_append, digitsValue_zeros,
        natDigits, digitsValue_toDigits, List.length_replicate, Nat.add_zero]
    have hexponent : d.exponent = (k : Int) := by omega
    rw [decimal, hdigits, Decimal.value, Decimal.value, hexponent]
    simp only [powerValue, List.length_singleton, Nat.cast_mul, Nat.cast_pow, Nat.cast_ofNat,
      Nat.cast_one, zero_sub, zpow_natCast, zpow_neg, zpow_one, pow_succ]
    field_simp

/-- A number with digits on both sides of the point. -/
theorem writes_split (hd : d.digits ≠ 0) (h : 0 < (natDigits d.digits).length + d.exponent)
    (hshort : ((natDigits d.digits).length + d.exponent).toNat < (natDigits d.digits).length) :
    Writes ⟨(natDigits d.digits).take ((natDigits d.digits).length + d.exponent).toNat,
        (natDigits d.digits).drop ((natDigits d.digits).length + d.exponent).toNat, none⟩
      ((natDigits d.digits).take ((natDigits d.digits).length + d.exponent).toNat ++
        '.' :: (natDigits d.digits).drop ((natDigits d.digits).length + d.exponent).toNat) d := by
  generalize hk : ((natDigits d.digits).length + d.exponent).toNat = k at hshort
  have hall : ∀ c ∈ natDigits d.digits, isDigit c = true := fun _ => isDigit_of_mem_toDigits
  have hdrop : (natDigits d.digits).drop k ≠ [] := by
    rw [Ne, List.drop_eq_nil_iff]
    omega
  refine ⟨⟨⟨⟨?_, ?_⟩, ?_⟩, ?_, ?_⟩, Or.inl hdrop, ?_, ?_⟩
  · rw [Ne, List.take_eq_nil_iff, not_or]
    exact ⟨by omega, Nat.toDigits_ne_nil⟩
  · exact fun c hc => hall c (List.mem_of_mem_take hc)
  · intro hzero
    rw [List.head?_take, if_neg (by omega)] at hzero
    exact absurd hzero (head?_toDigits_ne hd)
  · exact fun c hc => hall c (List.mem_of_mem_drop hc)
  · intro p hp
    cases hp
  · simp [text, fractionText, powerText, hdrop]
  · have hdigits : digitsValue ((natDigits d.digits).take k ++ (natDigits d.digits).drop k) =
        d.digits := by
      rw [List.take_append_drop, natDigits, digitsValue_toDigits]
    have hexponent : powerValue none - (((natDigits d.digits).drop k).length : Int) =
        d.exponent := by
      rw [powerValue, List.length_drop]
      omega
    rw [decimal, hdigits, hexponent]

/-- The digits of an exponent, at least two of them. -/
def powerDigits (n : Nat) : List Char :=
  if (natDigits n).length < 2 then '0' :: natDigits n else natDigits n

theorem isDigits_powerDigits (n : Nat) : IsDigits (powerDigits n) := by
  unfold powerDigits
  split
  · refine ⟨List.cons_ne_nil _ _, fun c hc => ?_⟩
    rcases List.mem_cons.mp hc with rfl | hdigit
    · rfl
    · exact isDigit_of_mem_toDigits hdigit
  · exact isDigits_toDigits n

theorem digitsValue_powerDigits (n : Nat) : digitsValue (powerDigits n) = n := by
  unfold powerDigits
  split
  · rw [← List.singleton_append, digitsValue_append, natDigits, digitsValue_toDigits]
    simp [digitsValue]
  · exact digitsValue_toDigits n

/-- A number with one digit in front of the point and an exponent. -/
theorem writes_scientific (d : Decimal) {c : Char} {cs : List Char} {power : Int}
    (hcs : natDigits d.digits = c :: cs)
    (hpower : power = (natDigits d.digits).length + d.exponent - 1) :
    Writes ⟨[c], cs, some (decide (power < 0), powerDigits power.natAbs)⟩
      ((match natDigits d.digits with
        | [] => []
        | [c] => [c]
        | c :: rest => c :: '.' :: rest) ++
        'e' :: (if power < 0 then '-' else '+') :: powerDigits power.natAbs) d := by
  have hall : ∀ x ∈ c :: cs, isDigit x = true := by
    rw [← hcs]
    exact fun _ => isDigit_of_mem_toDigits
  refine ⟨⟨⟨⟨List.cons_ne_nil c [], ?_⟩, ?_⟩, ?_, ?_⟩, Or.inr (by simp), ?_, ?_⟩
  · intro x hx
    rw [List.mem_singleton.mp hx]
    exact hall c List.mem_cons_self
  · intro hzero
    rw [List.head?_cons, Option.some.injEq] at hzero
    rw [hzero]
  · exact fun x hx => hall x (List.mem_cons_of_mem c hx)
  · intro p hp
    cases hp
    exact isDigits_powerDigits power.natAbs
  · rw [hcs]
    cases cs with
    | nil => simp [text, fractionText, powerText]
    | cons c' cs => simp [text, fractionText, powerText]
  · have hdigits : digitsValue ([c] ++ cs) = d.digits := by
      rw [List.singleton_append, ← hcs, natDigits, digitsValue_toDigits]
    have hvalue : powerValue (some (decide (power < 0), powerDigits power.natAbs)) = power := by
      rw [powerValue, digitsValue_powerDigits]
      by_cases h : power < 0
      · simp only [h, decide_true, if_true]
        omega
      · simp only [h, decide_false, Bool.false_eq_true, if_false]
        omega
    have hexponent : power - (cs.length : Int) = d.exponent := by
      rw [hpower, hcs, List.length_cons]
      omega
    rw [decimal, hdigits, hvalue, hexponent]

theorem exists_writes_text (hd : d.digits ≠ 0) : ∃ m : Numeral, m.Writes d.text d := by
  have hvalue := d.value_trimmed 800
  have htrimmed : (d.trimmed 800).digits ≠ 0 := by
    rw [Ne, ← Decimal.value_eq_zero_iff, hvalue, Decimal.value_eq_zero_iff]
    exact hd
  suffices h : ∃ m : Numeral, m.Writes d.text (d.trimmed 800) by
    obtain ⟨m, hm⟩ := h
    exact ⟨m, { hm with value_eq := hm.value_eq.trans hvalue }⟩
  unfold Decimal.text
  generalize d.trimmed 800 = t at htrimmed
  simp only
  split
  · split
    next hbelow => exact ⟨_, writes_below t hbelow⟩
    next habove =>
      rw [not_le] at habove
      split
      next hlong => exact ⟨_, writes_integral htrimmed habove hlong⟩
      next hshort => exact ⟨_, writes_split htrimmed habove (Nat.lt_of_not_le hshort)⟩
  · have hne : Nat.toDigits 10 t.digits ≠ [] := Nat.toDigits_ne_nil
    obtain ⟨c, cs, hcs⟩ := List.exists_cons_of_ne_nil hne
    exact ⟨_, writes_scientific t hcs rfl⟩

end Forms

/-- The text of a number in normal form is a numeral that is read back as this number. -/
theorem exists_finiteText_eq (h : (Binary64.finite negative s e).Canonical) :
    ∃ m : Numeral, m.IsFormed ∧ m.IsReal ∧
      Binary64.finiteText negative s e = signText negative ++ m.text ∧
      Binary64.ofDecimal negative m.decimal = .finite negative s e := by
  have htext (body : List Char) :
      (if negative = true then '-' :: body else body) = signText negative ++ body := by
    cases negative <;> rfl
  by_cases hs : s = 0
  · refine ⟨⟨['0'], ['0'], none⟩, ⟨isWhole_zero, ?_, ?_⟩, Or.inl (by simp), ?_, ?_⟩
    · intro c hc
      exact isDigit_of_mem_zeros (k := 1) hc
    · intro p hp
      cases hp
    · rw [Binary64.finiteText, htext, if_pos hs]
      rfl
    · have hdigits : digitsValue ['0', '0'] = 0 := rfl
      refine Binary64.ofDecimal_eq_finite h ?_
      simp [decimal, Decimal.value, hdigits, Binary64.value, hs]
  · obtain ⟨m, hm⟩ := exists_writes_text (Binary64.shortest_digits_ne_zero h hs)
    refine ⟨m, hm.formed, hm.real, ?_, ?_⟩
    · rw [Binary64.finiteText, htext, if_neg hs, hm.text_eq]
    · rw [Binary64.ofDecimal_congr hm.value_eq, Binary64.ofDecimal_shortest h hs]

end Numeral

end ArchiveExport.Json
