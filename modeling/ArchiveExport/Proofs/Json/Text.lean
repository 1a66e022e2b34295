import ArchiveExport.Json.Printer
import ArchiveExport.Proofs.Json.Grammar
import ArchiveExport.Proofs.Text.Wide

/-!
# Texts in quotes

A character of a text is written as itself, with a short escape or as the escape of its code, and
half of a surrogate pair as the escape of its own. What is written is a text of the grammar. It is
read back as the same text unless it has both halves of a pair behind one another: their escapes are
those of a character.
-/

namespace ArchiveExport.Json

open Text (Point Spelled)

variable {τ : Type} [Spelled τ] {layout : Layout} {c : Char} {p : Point} {ps done : List Point}
  {cs start more rest : List Char} {n fuel : Nat}

/-- Each character is written in one of four ways. A character that is no code of sixteen bits is
escaped as two of them. -/
theorem writeChar_cases (layout : Layout) (c : Char) :
    (∃ e, writeChar layout c = ['\\', e] ∧ shortEscape? e = some c ∧
        e ∈ ['"', '\\', '/', 'b', 'f', 'n', 'r', 't']) ∨
      (writeChar layout c = unitEscape c.toNat ∧ c.toNat < 0x10000) ∨
      (0x10000 ≤ c.toNat ∧ writeChar layout c =
        unitEscape (0xD800 + (c.toNat - 0x10000) / 1024) ++
          unitEscape (0xDC00 + (c.toNat - 0x10000) % 1024)) ∨
      (writeChar layout c = [c] ∧ 0x20 ≤ c.toNat ∧ c ≠ '"' ∧ c ≠ '\\') := by
  by_cases hquote : c = '"' ∨ c = '\\'
  · refine Or.inl ⟨c, if_pos hquote, ?_, ?_⟩
    · rcases hquote with rfl | rfl <;> rfl
    · rcases hquote with rfl | rfl <;> simp
  by_cases hcontrol : c.toNat < 0x20
  · have hchar : c = Char.ofNat c.toNat := (Char.ofNat_toNat c).symm
    unfold writeChar
    simp only [if_neg hquote, if_pos hcontrol]
    split
    next h => exact Or.inl ⟨'b', rfl, by rw [hchar, h]; rfl, by simp⟩
    next h => exact Or.inl ⟨'t', rfl, by rw [hchar, h]; rfl, by simp⟩
    next h => exact Or.inl ⟨'n', rfl, by rw [hchar, h]; rfl, by simp⟩
    next h => exact Or.inl ⟨'f', rfl, by rw [hchar, h]; rfl, by simp⟩
    next h => exact Or.inl ⟨'r', rfl, by rw [hchar, h]; rfl, by simp⟩
    next => exact Or.inr (Or.inl ⟨rfl, by omega⟩)
  by_cases hplain : (!layout.asciiOnly || c.toNat < 0x7F) = true
  · refine Or.inr (Or.inr (Or.inr ⟨?_, Nat.le_of_not_lt hcontrol, not_or.mp hquote⟩))
    exact ((if_neg hquote).trans (if_neg hcontrol)).trans (if_pos hplain)
  have hescape : writeChar layout c =
      if c.toNat < 0x10000 then unitEscape c.toNat
      else unitEscape (0xD800 + (c.toNat - 0x10000) / 1024) ++
        unitEscape (0xDC00 + (c.toNat - 0x10000) % 1024) :=
    ((if_neg hquote).trans (if_neg hcontrol)).trans (if_neg hplain)
  by_cases hunit : c.toNat < 0x10000
  · rw [if_pos hunit] at hescape
    exact Or.inr (Or.inl ⟨hescape, hunit⟩)
  · rw [if_neg hunit] at hescape
    exact Or.inr (Or.inr (Or.inl ⟨Nat.le_of_not_lt hunit, hescape⟩))

/-! ### The escape of a code -/

theorem hexValue?_hexDigit (h : n < 16) : hexValue? (Bytes.hexDigit n) = some n := by
  have hall : ∀ n < 16, hexValue? (Bytes.hexDigit n) = some n := by decide
  exact hall n h

theorem hexDigits_four (n : Nat) :
    Text.hexDigits 4 n = [Bytes.hexDigit (n / 4096 % 16), Bytes.hexDigit (n / 256 % 16),
      Bytes.hexDigit (n / 16 % 16), Bytes.hexDigit (n % 16)] := by
  simp [Text.hexDigits, Nat.div_div_eq_div_mul]

theorem unit?_hexDigits (h : n < 0x10000) : unit? (Text.hexDigits 4 n) = some n := by
  have hdigit (k : Nat) : hexValue? (Bytes.hexDigit (k % 16)) = some (k % 16) :=
    hexValue?_hexDigit (Nat.mod_lt k (by decide))
  rw [hexDigits_four, unit?]
  simp only [hdigit, Option.some.injEq]
  omega

theorem length_hexDigits_four (n : Nat) : (Text.hexDigits 4 n).length = 4 := by
  rw [hexDigits_four]
  rfl

/-- A first half of a pair in front of the text would not find its second half there. -/
def StartsApart (cs : List Char) : Prop :=
  ∀ tail, cs = '\\' :: 'u' :: tail →
    ∃ low, unit? (tail.take 4) = some low ∧ ¬ (0xDC00 ≤ low ∧ low < 0xE000)

theorem startsApart_of_ne (h : c ≠ '\\') : StartsApart (c :: cs) :=
  fun _ htail => absurd (List.cons.inj htail).1 h

theorem startsApart_unitEscape (h : n < 0x10000) (hlow : ¬ (0xDC00 ≤ n ∧ n < 0xE000)) :
    StartsApart (unitEscape n ++ cs) := by
  intro tail htail
  have hdigits : Text.hexDigits 4 n ++ cs = tail := (List.cons.inj (List.cons.inj htail).2).2
  refine ⟨n, ?_, hlow⟩
  rw [← hdigits, List.take_left' (length_hexDigits_four n), unit?_hexDigits h]

/-- The escape of a code is read back, unless nothing follows it or it joins with what follows. -/
theorem unicodeEscape_hexDigits (h : n < 0x10000)
    (hapart : 0xD800 ≤ n → n < 0xDC00 → StartsApart more) (hmore : more ≠ []) :
    unicodeEscape (Text.hexDigits 4 n ++ more) = .ok (.ofUnit n, more) := by
  unfold unicodeEscape
  rw [List.take_left' (length_hexDigits_four n), List.drop_left' (length_hexDigits_four n),
    unit?_hexDigits h]
  cases more with
  | nil => exact absurd rfl hmore
  | cons x xs =>
      simp only
      split
      next tail htail =>
        split
        next hhigh =>
          obtain ⟨low, hunit, hlow⟩ := hapart hhigh.1 hhigh.2.1 tail htail
          rw [hunit]
          exact if_neg hlow
        next => rfl
      next => rfl

/-- The escapes of two surrogates are read back as one character, unless nothing follows them. -/
theorem unicodeEscape_pair (high low : Nat) (hhigh : 0xD800 ≤ high ∧ high < 0xDC00)
    (hlow : 0xDC00 ≤ low ∧ low < 0xE000) (hmore : more ≠ []) :
    unicodeEscape (Text.hexDigits 4 high ++ (unitEscape low ++ more)) =
      .ok (.char (Char.ofNat (0x10000 + 1024 * (high - 0xD800) + (low - 0xDC00))), more) := by
  have hrest : more.isEmpty = false := List.isEmpty_eq_false_iff.mpr hmore
  have hunit : unitEscape low ++ more = '\\' :: 'u' :: (Text.hexDigits 4 low ++ more) := rfl
  unfold unicodeEscape
  rw [List.take_left' (length_hexDigits_four high), List.drop_left' (length_hexDigits_four high),
    unit?_hexDigits (by omega), hunit]
  simp only [hrest, hhigh, Bool.not_false, and_self, if_true,
    List.take_left' (length_hexDigits_four low), unit?_hexDigits (show low < 0x10000 by omega),
    hlow, List.drop_left' (length_hexDigits_four low)]

/-! ### Reading back -/

theorem readText_quote : readText start (fuel + 1) done ('"' :: rest) =
    .ok ((Spelled.ofPoints done.reverse : τ), rest) := by
  rw [readText.eq_def]
  exact if_pos rfl

theorem readText_plain (hplain : 0x20 ≤ c.toNat) (hquote : c ≠ '"') (hslash : c ≠ '\\') :
    (readText start (fuel + 1) done (c :: rest) : Except Stop (τ × List Char)) =
      readText start fuel (.char c :: done) rest := by
  rw [readText.eq_def]
  exact (if_neg hquote).trans ((if_neg hslash).trans (if_neg (Nat.not_lt.mpr hplain)))

theorem readText_short {e : Char} (h : shortEscape? e = some c) :
    (readText start (fuel + 1) done ('\\' :: e :: rest) : Except Stop (τ × List Char)) =
      readText start fuel (.char c :: done) rest := by
  have hu : e ≠ 'u' := by
    rintro rfl
    simp [shortEscape?] at h
  rw [readText.eq_def]
  simp [h]

theorem readText_unit (h : unicodeEscape more = .ok (p, rest)) :
    (readText start (fuel + 1) done ('\\' :: 'u' :: more) : Except Stop (τ × List Char)) =
      readText start fuel (p :: done) rest := by
  rw [readText.eq_def]
  simp [h]

/-- What is written for a character is read as that character. -/
theorem readText_writeChar (layout : Layout) (c : Char) (hmore : more ≠ []) :
    (readText start (fuel + 1) done (writeChar layout c ++ more) : Except Stop (τ × List Char)) =
      readText start fuel (.char c :: done) more := by
  have hvalid : c.toNat < 0xD800 ∨ (0xDFFF < c.toNat ∧ c.toNat < 0x110000) := c.valid
  rcases writeChar_cases layout c with ⟨e, hwrite, hescape, -⟩ | ⟨hwrite, hunit⟩ |
    ⟨hpair, hwrite⟩ | ⟨hwrite, hplain, hquote, hslash⟩
  · rw [hwrite]
    exact readText_short hescape
  · have hread : unicodeEscape (Text.hexDigits 4 c.toNat ++ more) = .ok (.char c, more) := by
      rw [unicodeEscape_hexDigits hunit (by omega) hmore, Point.ofUnit_char hunit]
    rw [hwrite]
    exact readText_unit hread
  · have hread := unicodeEscape_pair (0xD800 + (c.toNat - 0x10000) / 1024)
      (0xDC00 + (c.toNat - 0x10000) % 1024) (by omega) (by omega) hmore
    have hcode : 0x10000 + 1024 * (0xD800 + (c.toNat - 0x10000) / 1024 - 0xD800) +
        (0xDC00 + (c.toNat - 0x10000) % 1024 - 0xDC00) = c.toNat := by
      omega
    rw [hcode, Char.ofNat_toNat] at hread
    rw [hwrite, List.append_assoc]
    exact readText_unit hread
  · rw [hwrite]
    exact readText_plain hplain hquote hslash

/-- What is written for a code point is read as that code point, unless this is the first half of
a pair and what follows starts with the second. -/
theorem readText_writePoint (layout : Layout) (p : Point)
    (hapart : p.isHigh = true → StartsApart more) (hmore : more ≠ []) :
    (readText start (fuel + 1) done (writePoint layout p ++ more) : Except Stop (τ × List Char)) =
      readText start fuel (p :: done) more := by
  cases p with
  | char c => exact readText_writeChar layout c hmore
  | half n =>
      have hhigh : 0xD800 + n.val < 0xDC00 → StartsApart more := fun hn =>
        hapart (decide_eq_true (by omega))
      have hread : unicodeEscape (Text.hexDigits 4 (0xD800 + n) ++ more) = .ok (.half n, more) := by
        rw [unicodeEscape_hexDigits (by omega) (fun _ => hhigh) hmore, Point.ofUnit_half]
      exact readText_unit hread

/-- Only a second half of a pair is written with the escape of one in front. -/
theorem startsApart_writePoint (layout : Layout) (h : p.isLow = false) :
    StartsApart (writePoint layout p ++ cs) := by
  cases p with
  | half n =>
      have hn : ¬ 0x400 ≤ n.val := of_decide_eq_false h
      exact startsApart_unitEscape (by omega) (by omega)
  | char c =>
      have hvalid : c.toNat < 0xD800 ∨ (0xDFFF < c.toNat ∧ c.toNat < 0x110000) := c.valid
      rw [writePoint]
      rcases writeChar_cases layout c with ⟨e, hwrite, -, hmem⟩ | ⟨hwrite, hunit⟩ |
        ⟨hpair, hwrite⟩ | ⟨hwrite, -, -, hslash⟩
      · rw [hwrite]
        intro tail htail
        obtain rfl := (List.cons.inj (List.cons.inj htail).2).1
        exact absurd hmem (by decide)
      · rw [hwrite]
        exact startsApart_unitEscape hunit (by omega)
      · rw [hwrite, List.append_assoc]
        exact startsApart_unitEscape (by omega) (by omega)
      · rw [hwrite]
        exact startsApart_of_ne hslash

theorem length_writePoint_pos (layout : Layout) (p : Point) :
    0 < (writePoint layout p).length := by
  cases p with
  | half n => exact Nat.succ_pos _
  | char c =>
      rw [writePoint]
      rcases writeChar_cases layout c with ⟨e, hwrite, -⟩ | ⟨hwrite, -⟩ | ⟨-, hwrite⟩ | ⟨hwrite, -⟩
      all_goals
        rw [hwrite]
        exact Nat.succ_pos _

/-- What is written between quotes is read back. -/
theorem readText_flatMap (hunpaired : Text.Unpaired ps)
    (hfuel : (ps.flatMap (writePoint layout)).length < fuel) :
    readText start fuel done (ps.flatMap (writePoint layout) ++ '"' :: rest) =
      .ok ((Spelled.ofPoints (done.reverse ++ ps) : τ), rest) := by
  induction ps generalizing fuel done with
  | nil =>
      obtain ⟨fuel, rfl⟩ := Nat.exists_eq_succ_of_ne_zero (Nat.ne_of_gt hfuel)
      rw [List.flatMap_nil, List.nil_append, readText_quote, List.append_nil]
  | cons p ps ih =>
      have hpos := length_writePoint_pos layout p
      have happart : p.isHigh = true →
          StartsApart (ps.flatMap (writePoint layout) ++ '"' :: rest) := by
        intro hhigh
        cases ps with
        | nil => exact startsApart_of_ne (by decide)
        | cons q ps =>
            have hlow := (List.isChain_cons_cons.mp hunpaired).1 hhigh
            rw [List.flatMap_cons, List.append_assoc]
            exact startsApart_writePoint layout hlow
      rw [List.flatMap_cons, List.length_append] at hfuel
      obtain ⟨fuel, rfl⟩ := Nat.exists_eq_succ_of_ne_zero (Nat.ne_of_gt (Nat.zero_lt_of_lt hfuel))
      rw [List.flatMap_cons, List.append_assoc, readText_writePoint layout p happart (by simp),
        ih hunpaired.of_cons (by omega), List.reverse_cons, List.append_assoc,
        List.singleton_append]

/-! ### Grammar -/

theorem isTextBody_unitEscape (n : Nat) (h : IsTextBody cs) :
    IsTextBody (unitEscape n ++ cs) := by
  rw [unitEscape, hexDigits_four]
  refine .unit (fun x hx => ?_) h
  have hdigit (k : Nat) : (hexValue? (Bytes.hexDigit (k % 16))).isSome = true := by
    rw [hexValue?_hexDigit (Nat.mod_lt k (by decide))]
    rfl
  simp only [List.mem_cons, List.not_mem_nil, or_false] at hx
  rcases hx with rfl | rfl | rfl | rfl <;> exact hdigit _

theorem isTextBody_writeChar (layout : Layout) (c : Char) (h : IsTextBody cs) :
    IsTextBody (writeChar layout c ++ cs) := by
  rcases writeChar_cases layout c with ⟨e, hwrite, -, hmem⟩ | ⟨hwrite, -⟩ | ⟨-, hwrite⟩ |
    ⟨hwrite, hplain, hquote, hslash⟩
  · rw [hwrite]
    exact .short hmem h
  · rw [hwrite]
    exact isTextBody_unitEscape _ h
  · rw [hwrite, List.append_assoc]
    exact isTextBody_unitEscape _ (isTextBody_unitEscape _ h)
  · rw [hwrite]
    exact .plain hplain hquote hslash h

theorem isTextBody_writePoint (layout : Layout) (p : Point) (h : IsTextBody cs) :
    IsTextBody (writePoint layout p ++ cs) := by
  cases p with
  | char c => exact isTextBody_writeChar layout c h
  | half n => exact isTextBody_unitEscape _ h

/-- A text that is written is one of the grammar. -/
theorem isText_writeText (layout : Layout) (text : τ) : IsText (writeText layout text) := by
  refine .quoted ?_
  induction Spelled.points text with
  | nil => exact .nil
  | cons p ps ih => exact isTextBody_writePoint layout p ih

end ArchiveExport.Json
