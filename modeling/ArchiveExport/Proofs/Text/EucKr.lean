import ArchiveExport.Proofs.Text.Lowercase
import ArchiveExport.Text.EucKr
import ArchiveExport.Text.Utf8
import Mathlib.Tactic.ByContra

/-!
# What octets spell in EUC-KR

The spellings of characters and of texts. What spells a text is read as that text, and in the text
of any other octets there is a U+FFFD, which no spelling has. So the text read tells whether it was
spelled.
-/

namespace ArchiveExport.Text.EucKr

open Utf8 (replacement)

variable {b : UInt8} {bs piece rest : Bytes} {c : Char} {cs : List Char} {width : Nat}

/-- The spellings of a character: an octet of ASCII, a cell of the table other than the filler, or
four pairs that begin with the filler and compose a syllable. -/
inductive Form : Bytes → Char → Prop
  | ascii {b : UInt8} (h : b.toNat < 0x80) : Form [b] (Char.ofNat b.toNat)
  | cell {a b : UInt8} {c : Char} (hfiller : ¬ (a.toNat = 0xA4 ∧ b.toNat = 0xD4))
      (hc : pair? a.toNat b.toNat = some c) : Form [a, b] c
  | syllable {initial vowel final : UInt8} {c : Char}
      (hc : syllable? initial.toNat vowel.toNat final.toNat = some c) :
      Form [0xA4, 0xD4, 0xA4, initial, 0xA4, vowel, 0xA4, final] c

/-- Octets spell a text, character by character. -/
inductive Spells : Bytes → List Char → Prop
  | nil : Spells [] []
  | cons {piece bs : Bytes} {c : Char} {cs : List Char} (hc : Form piece c)
      (hrest : Spells bs cs) : Spells (piece ++ bs) (c :: cs)

/-! ### Characters -/

theorem range_of_pair? {a b : Nat} (h : pair? a b = some c) : 0xA1 ≤ a ∧ cell? a b = some c := by
  rw [pair?] at h
  split at h
  next hrange => exact ⟨hrange.1, h⟩
  next => cases h

theorem ne_replacement_of_cell? {row column : Nat} (h : cell? row column = some c) :
    c ≠ replacement := by
  unfold cell? at h
  split at h
  next => cases h
  next =>
    split at h
    next d hd =>
      split at h
      next => cases h
      next hne =>
        obtain rfl := Option.some.inj h
        exact fun heq => hne (congrArg Char.toNat heq)
    next => cases h

theorem lt_of_idxOf?_eq_some {letters : List Nat} {letter i : Nat}
    (h : letters.idxOf? letter = some i) : i < letters.length := by
  rw [List.idxOf?, List.findIdx?_eq_some_iff_getElem] at h
  exact h.1

/-- Syllables stand in one block of characters. -/
theorem ne_replacement_of_syllable? {initial vowel final : Nat}
    (h : syllable? initial vowel final = some c) : c ≠ replacement := by
  rw [syllable?] at h
  split at h
  next i f hi hf =>
    have hinitial : i < 19 := lt_of_idxOf?_eq_some hi
    have hfinal : f < 28 := lt_of_idxOf?_eq_some hf
    split at h
    next hvowel =>
      rintro rfl
      have hcode := congrArg Char.toNat (Option.some.inj h)
      rw [toNat_ofNat (by rw [Nat.isValidChar]; omega)] at hcode
      have hreplacement : replacement.toNat = 0xFFFD := rfl
      omega
    next => cases h
  next => cases h

theorem Form.ne_replacement (h : Form piece c) : c ≠ replacement := by
  cases h with
  | @ascii b hb =>
      intro heq
      have hcode := congrArg Char.toNat heq
      rw [toNat_ofNat (by rw [Nat.isValidChar]; omega)] at hcode
      have hreplacement : replacement.toNat = 0xFFFD := rfl
      omega
  | cell hfiller hc => exact ne_replacement_of_cell? (range_of_pair? hc).2
  | syllable hc => exact ne_replacement_of_syllable? hc

theorem Form.ne_nil (h : Form piece c) : piece ≠ [] := by
  cases h <;> simp

/-- A spelling is recognized in front of any octets. -/
theorem head_of_form (h : Form (b :: piece) c) (rest : Bytes) :
    head b (piece ++ rest) = .char c (piece.length + 1) := by
  cases h with
  | ascii hb =>
      unfold head
      rw [if_pos hb]
      rfl
  | cell hfiller hc =>
      have hb := (range_of_pair? hc).1
      unfold head
      rw [if_neg (by omega)]
      simp only [List.cons_append, List.nil_append, if_neg hfiller, hc]
      rfl
  | syllable hc =>
      unfold head
      rw [if_neg (by decide)]
      simp only [List.cons_append, List.nil_append, hc]
      rfl

theorem eq_of_toNat_eq {n : Nat} (h : b.toNat = n) : b = UInt8.ofNat n := by
  rw [← h, UInt8.ofNat_toNat]

/-- What is recognized is a spelling. -/
theorem exists_form_of_head (h : head b rest = .char c width) :
    ∃ piece behind, rest = piece ++ behind ∧ width = piece.length + 1 ∧ Form (b :: piece) c := by
  unfold head at h
  split at h
  next hb =>
    obtain ⟨rfl, rfl⟩ := Head.char.inj h
    exact ⟨[], rest, rfl, rfl, .ascii hb⟩
  next hb =>
    split at h
    next => cases h
    next b₁ rest₁ =>
      split at h
      next hfiller =>
        split at h
        next b₂ b₃ b₄ b₅ b₆ b₇ behind =>
          split at h
          next hrow =>
            split at h
            next d hd =>
              obtain ⟨rfl, rfl⟩ := Head.char.inj h
              obtain rfl := eq_of_toNat_eq hfiller.1
              obtain rfl := eq_of_toNat_eq hfiller.2
              obtain rfl := eq_of_toNat_eq hrow.1
              obtain rfl := eq_of_toNat_eq hrow.2.1
              obtain rfl := eq_of_toNat_eq hrow.2.2
              exact ⟨_, behind, rfl, rfl, .syllable hd⟩
            next => cases h
          next => cases h
        next => cases h
      next hfiller =>
        split at h
        next d hd =>
          obtain ⟨rfl, rfl⟩ := Head.char.inj h
          exact ⟨[b₁], rest₁, rfl, rfl, .cell hfiller hd⟩
        next => cases h

/-! ### Texts -/

/-- The characters read before stay, and the octets skipped do not count. -/
theorem runLossy_eq (skip : Nat) (done : List Char) (bs : Bytes) :
    runLossy skip done bs = done.reverse ++ decodeLossy (bs.drop skip) := by
  induction bs generalizing skip done with
  | nil => simp [runLossy, decodeLossy]
  | cons b rest ih =>
      cases skip with
      | zero =>
          rw [List.drop_zero, decodeLossy, runLossy, runLossy]
          cases head b rest with
          | char c width => simp only [ih, List.reverse_cons, List.append_assoc, List.reverse_nil,
              List.nil_append]
          | fault cause width => simp only [ih, List.reverse_cons, List.append_assoc,
              List.reverse_nil, List.nil_append]
      | succ skip =>
          rw [runLossy, ih, List.drop_succ_cons]

theorem decodeLossy_form_append (h : Form piece c) (rest : Bytes) :
    decodeLossy (piece ++ rest) = c :: decodeLossy rest := by
  obtain ⟨b, piece, rfl⟩ := List.exists_cons_of_ne_nil h.ne_nil
  rw [List.cons_append, decodeLossy, runLossy, head_of_form h]
  simp [runLossy_eq]

theorem decodeLossy_of_fault {cause : Cause} (h : head b rest = .fault cause width) :
    replacement ∈ decodeLossy (b :: rest) := by
  rw [decodeLossy, runLossy, h]
  simp only [runLossy_eq]
  exact List.mem_append_left _ (List.mem_reverse.mpr List.mem_cons_self)

/-- Octets spell a text exactly if it is read from them, and nothing in it stands for octets that
spell nothing. -/
theorem spells_iff : Spells bs cs ↔ decodeLossy bs = cs ∧ replacement ∉ cs := by
  constructor
  · intro h
    induction h with
    | nil => exact ⟨rfl, List.not_mem_nil⟩
    | cons hc _ ih =>
        rw [decodeLossy_form_append hc, ih.1, List.mem_cons, not_or]
        exact ⟨rfl, hc.ne_replacement.symm, ih.2⟩
  · rintro ⟨rfl, hnone⟩
    induction hlength : bs.length using Nat.strongRecOn generalizing bs with
    | _ n ih =>
        cases bs with
        | nil => exact .nil
        | cons b rest =>
            cases hhead : head b rest with
            | fault cause width => exact absurd (decodeLossy_of_fault hhead) hnone
            | char c width =>
                obtain ⟨piece, behind, rfl, -, hform⟩ := exists_form_of_head hhead
                rw [← List.cons_append, decodeLossy_form_append hform, List.mem_cons,
                  not_or] at hnone
                rw [← List.cons_append, decodeLossy_form_append hform]
                refine .cons hform (ih behind.length ?_ hnone.2 rfl)
                rw [← hlength, List.length_cons, List.length_append]
                omega

/-- In the text of octets that spell none, something stands for octets that spell nothing. -/
theorem forall_not_spells_iff : (∀ cs, ¬ Spells bs cs) ↔ replacement ∈ decodeLossy bs := by
  constructor
  · intro h
    by_contra hnone
    exact h _ (spells_iff.mpr ⟨rfl, hnone⟩)
  · rintro hmem cs hcs
    obtain ⟨rfl, hnone⟩ := spells_iff.mp hcs
    exact hnone hmem

end ArchiveExport.Text.EucKr
