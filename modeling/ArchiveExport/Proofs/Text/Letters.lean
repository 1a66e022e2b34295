import ArchiveExport.Proofs.Text.Blank
import ArchiveExport.Proofs.Text.Lowercase
import ArchiveExport.Text.Utf8
import Mathlib.Data.List.Basic

/-!
# Letters and blanks

What lowering does to single characters. It makes blanks from blanks only; on characters of ASCII it
is the lowering of the alphabet, and only the kelvin sign becomes a character of ASCII without being
one.
-/

namespace ArchiveExport.Text

variable {before cs ds : List Char} {c d : Char}

/-! ### Forms -/

/-- The blanks beyond ASCII, as ranges. -/
def blankRanges : List (Nat × Nat) :=
  [(0x85, 0x85), (0xA0, 0xA0), (0x1680, 0x1680), (0x2000, 0x200A), (0x2028, 0x2029),
    (0x202F, 0x202F), (0x205F, 0x205F), (0x3000, 0x3000)]

theorem isBlank_eq_false (hlow : 0x20 < c.toNat)
    (h : ∀ r ∈ blankRanges, c.toNat < r.1 ∨ r.2 < c.toNat) : isBlank c = false := by
  simp only [blankRanges, List.forall_mem_cons, List.not_mem_nil] at h
  simp only [isBlank, Bool.or_eq_false_iff, Bool.and_eq_false_iff, decide_eq_false_iff_not]
  omega

theorem isBlank_eq_false_of_ascii (hlow : 0x20 < c.toNat) (hhigh : c.toNat < 0x80) :
    isBlank c = false := by
  apply isBlank_eq_false hlow
  simp only [blankRanges, List.forall_mem_cons, List.not_mem_nil, false_imp_iff, implies_true,
    and_true]
  omega

namespace CaseRun

/-- Whether a run has characters of ASCII only, or no forms among them but the letter k. -/
def leavesAscii (run : CaseRun) : Bool :=
  run.last < 0x80 || 0x80 ≤ run.lowest || (run.first = run.last && run.lowest = 0x6B)

/-- Whether no form of a run is a blank. -/
def missesBlanks (run : CaseRun) : Bool :=
  blankRanges.all fun r => run.highest < r.1 || r.2 < run.lowest

end CaseRun

theorem all_leavesAscii :
    lowercaseRuns.all (fun run => run.leavesAscii && run.missesBlanks) = true := by
  decide +kernel

/-- The forms of a run are between its lowest and its highest one. -/
theorem bounds_of_covers {run : CaseRun} {n : Nat} (hrun : run ∈ lowercaseRuns)
    (hn : run.covers n = true) :
    run.lowest ≤ (n + run.shift).toNat ∧ (n + run.shift).toNat ≤ run.highest ∧
      (Char.ofNat (n + run.shift).toNat).toNat = (n + run.shift).toNat := by
  have hsettled := List.all_eq_true.mp all_isSettled run hrun
  simp only [CaseRun.isSettled, Bool.and_eq_true, Bool.or_eq_true, decide_eq_true_eq] at hsettled
  obtain ⟨⟨⟨⟨⟨-, hshift⟩, -⟩, -⟩, hvalid⟩, -⟩ := hsettled
  simp only [CaseRun.covers, Bool.and_eq_true, decide_eq_true_eq] at hn
  have hlowest : run.lowest ≤ (n + run.shift).toNat := by
    rw [CaseRun.lowest]
    omega
  have hhighest : (n + run.shift).toNat ≤ run.highest := by
    rw [CaseRun.highest]
    omega
  refine ⟨hlowest, hhighest, toNat_ofNat ?_⟩
  rw [Nat.isValidChar]
  omega

/-- What a run makes of a character that it covers: no blank, and no character of ASCII but the
letter k unless the character is of ASCII itself. -/
theorem form_of_covers {run : CaseRun} {n : Nat} (hrun : run ∈ lowercaseRuns)
    (hn : run.covers n = true) :
    isBlank (Char.ofNat (n + run.shift).toNat) = false ∧
      (n < 0x80 ∨ 0x80 ≤ (Char.ofNat (n + run.shift).toNat).toNat ∨
        Char.ofNat (n + run.shift).toNat = 'k') := by
  obtain ⟨-, hbeyond⟩ := lowered_of_covers hrun hn
  obtain ⟨hlowest, hhighest, htoNat⟩ := bounds_of_covers hrun hn
  have hforms := List.all_eq_true.mp all_leavesAscii run hrun
  simp only [CaseRun.leavesAscii, CaseRun.missesBlanks, Bool.and_eq_true, Bool.or_eq_true,
    decide_eq_true_eq, List.all_eq_true] at hforms
  obtain ⟨hascii, hblanks⟩ := hforms
  simp only [CaseRun.covers, Bool.and_eq_true, decide_eq_true_eq] at hn
  constructor
  · refine isBlank_eq_false (by omega) fun r hr => ?_
    have hr' := hblanks r hr
    rw [htoNat]
    omega
  · rcases hascii with (hsmall | hlarge) | ⟨hsingle, hk⟩
    · exact Or.inl (by omega)
    · exact Or.inr (Or.inl (by omega))
    · have hform : (n + run.shift).toNat = 0x6B := by
        rw [← hk, CaseRun.lowest]
        omega
      rw [hform]
      exact Or.inr (Or.inr rfl)

theorem isBlank_lowerChar (h : isBlank c = false) : isBlank (lowerChar c) = false := by
  rcases lowerChar_eq c with hsame | ⟨run, hrun, hcovers, hform⟩
  · rwa [hsame]
  · rw [hform]
    exact (form_of_covers hrun hcovers).1

theorem toNat_toLower (c : Char) :
    c.toLower.toNat =
      if 0x41 ≤ c.toNat ∧ c.toNat ≤ 0x5A then c.toNat + 32 else c.toNat := by
  have hrange : c.val ≥ 'A'.val ∧ c.val ≤ 'Z'.val ↔ 0x41 ≤ c.toNat ∧ c.toNat ≤ 0x5A := by
    rw [ge_iff_le, UInt32.le_iff_toNat_le, UInt32.le_iff_toNat_le]
    rfl
  delta Char.toLower
  by_cases hcapital : 0x41 ≤ c.toNat ∧ c.toNat ≤ 0x5A
  · rw [dif_pos (hrange.mpr hcapital), if_pos hcapital]
    have hsum : c.toNat + 32 < 2 ^ 32 := by omega
    change (c.val + 32).toNat = c.val.toNat + 32
    rw [UInt32.toNat_add]
    exact Nat.mod_eq_of_lt hsum
  · rw [dif_neg (mt hrange.mp hcapital), if_neg hcapital]

/-- Lowering in ASCII is lowering in the alphabet. -/
theorem lowerChar_of_ascii (h : c.toNat < 0x80) : lowerChar c = c.toLower := by
  rw [← Char.toNat_inj, toNat_toLower, lowerChar, if_pos h]
  split
  next hcapital =>
    apply toNat_ofNat
    rw [Nat.isValidChar]
    omega
  next => rfl

theorem ascii_of_lowerChar (h : (lowerChar c).toNat < 0x80) (hk : lowerChar c ≠ 'k') :
    c.toNat < 0x80 := by
  rcases lowerChar_eq c with hsame | ⟨run, hrun, hcovers, hform⟩
  · rwa [hsame] at h
  · rw [hform] at h hk
    rcases (form_of_covers hrun hcovers).2 with hascii | hbeyond | hsame
    · exact hascii
    · omega
    · exact absurd hsame hk

/-! ### Lowered texts -/

/-- What a character becomes in a text. -/
theorem lowerFrom_cons_cases (before : List Char) (c : Char) (rest : List Char) :
    (c.toNat = 0x3A3 ∧ ∃ d, (d = 'ς' ∨ d = 'σ') ∧
        lowerFrom before (c :: rest) = d :: lowerFrom (c :: before) rest) ∨
      (c.toNat = 0x130 ∧
        lowerFrom before (c :: rest) = 'i' :: Char.ofNat 0x307 :: lowerFrom (c :: before) rest) ∨
      (c.toNat ≠ 0x3A3 ∧ c.toNat ≠ 0x130 ∧
        lowerFrom before (c :: rest) = lowerChar c :: lowerFrom (c :: before) rest) := by
  rw [lowerFrom]
  by_cases hsigma : c.toNat = 0x3A3
  · left
    refine ⟨hsigma, ?_⟩
    rw [if_pos hsigma]
    split
    · exact ⟨'ς', Or.inl rfl, rfl⟩
    · exact ⟨'σ', Or.inr rfl, rfl⟩
  by_cases hdotted : c.toNat = 0x130
  · right
    left
    rw [if_neg hsigma, if_pos hdotted]
    exact ⟨hdotted, rfl⟩
  · right
    right
    rw [if_neg hsigma, if_neg hdotted]
    exact ⟨hsigma, hdotted, rfl⟩

theorem lowerFrom_of_ascii (h : ∀ c ∈ cs, c.toNat < 0x80) :
    lowerFrom before cs = cs.map Char.toLower := by
  induction cs generalizing before with
  | nil => rfl
  | cons c cs ih =>
      rw [List.forall_mem_cons] at h
      obtain ⟨hc, hcs⟩ := h
      rcases lowerFrom_cons_cases before c cs with ⟨hsigma, -⟩ | ⟨hdotted, -⟩ | ⟨-, -, heq⟩
      · omega
      · omega
      · rw [heq, ih hcs, lowerChar_of_ascii hc, List.map_cons]

/-- A text that is lowered to ASCII, without the letter k, is of ASCII. -/
theorem map_toLower_of_lowerFrom (h : lowerFrom before cs = ds)
    (hds : ∀ d ∈ ds, d.toNat < 0x80 ∧ d ≠ 'k') : cs.map Char.toLower = ds := by
  induction cs generalizing before ds with
  | nil => exact h
  | cons c cs ih =>
      rcases lowerFrom_cons_cases before c cs with ⟨-, d, hd, heq⟩ | ⟨-, heq⟩ | ⟨-, -, heq⟩
      · rw [← h, heq, List.forall_mem_cons] at hds
        have hbeyond : ¬ d.toNat < 0x80 := by
          rcases hd with rfl | rfl <;> decide
        exact absurd hds.1.1 hbeyond
      · rw [← h, heq, List.forall_mem_cons, List.forall_mem_cons] at hds
        exact absurd hds.2.1.1 (by decide)
      · rw [← h, heq, List.forall_mem_cons] at hds
        obtain ⟨⟨hascii, hk⟩, hrest⟩ := hds
        rw [← h, heq, List.map_cons, lowerChar_of_ascii (ascii_of_lowerChar hascii hk),
          ih rfl hrest]

theorem letter_of_toLower (hlow : 0x61 ≤ c.toLower.toNat) (hhigh : c.toLower.toNat ≤ 0x7A) :
    0x41 ≤ c.toNat ∧ c.toNat < 0x80 := by
  rw [toNat_toLower] at hlow hhigh
  split at hlow
  next hcapital => exact ⟨hcapital.1, by omega⟩
  next hother =>
    rw [if_neg hother] at hhigh
    omega

/-! ### Small letters -/

/-- A small sigma in the form that it has inside words. -/
def innerSigma (c : Char) : Char := if c = 'ς' then 'σ' else c

/-- The small letters of a character, wherever it stands. -/
def smallLetters (c : Char) : List Char :=
  if c.toNat = 0x130 then ['i', Char.ofNat 0x307] else [innerSigma (lowerChar c)]

/-- A text is lowered to the small letters of its characters, but for sigmas that end words. -/
theorem map_innerSigma_lowerFrom (before cs : List Char) :
    (lowerFrom before cs).map innerSigma = cs.flatMap smallLetters := by
  induction cs generalizing before with
  | nil => rfl
  | cons c cs ih =>
      rw [List.flatMap_cons, smallLetters]
      rcases lowerFrom_cons_cases before c cs with
        ⟨hsigma, d, hd, heq⟩ | ⟨hdotted, heq⟩ | ⟨-, hdotted, heq⟩
      · have hsame : innerSigma d = innerSigma (lowerChar 'Σ') := by
          rcases hd with rfl | rfl <;> decide
        obtain rfl : c = 'Σ' := Char.toNat_inj.mp hsigma
        rw [heq, List.map_cons, ih, hsame]
        rfl
      · rw [heq, List.map_cons, List.map_cons, ih, if_pos hdotted]
        rfl
      · rw [heq, List.map_cons, ih, if_neg hdotted]
        rfl

theorem all_miss_replacement :
    lowercaseRuns.all (fun run => (run.last < 0xFFFD || 0xFFFD < run.first) &&
      (run.highest < 0xFFFD || 0xFFFD < run.lowest)) = true := by
  decide +kernel

theorem lowerChar_eq_replacement_iff : lowerChar c = Utf8.replacement ↔ c = Utf8.replacement := by
  rcases lowerChar_eq c with hsame | ⟨run, hrun, hcovers, hform⟩
  · rw [hsame]
  · have hcode : Utf8.replacement.toNat = 0xFFFD := rfl
    have hmiss := List.all_eq_true.mp all_miss_replacement run hrun
    obtain ⟨hlowest, hhighest, htoNat⟩ := bounds_of_covers hrun hcovers
    simp only [CaseRun.covers, Bool.and_eq_true, Bool.or_eq_true, decide_eq_true_eq]
      at hmiss hcovers
    rw [← hform] at htoNat
    rw [← Char.toNat_inj, ← Char.toNat_inj, htoNat, hcode]
    omega

/-- The character for octets that spell none is no letter, and it is the small form of none. -/
theorem replacement_mem_smallLetters_iff :
    Utf8.replacement ∈ smallLetters c ↔ Utf8.replacement = c := by
  have hcode : Utf8.replacement.toNat = 0xFFFD := rfl
  have hsigma : Utf8.replacement ≠ 'σ' ∧ Utf8.replacement ≠ 'ς' := by decide
  rw [smallLetters]
  split
  next hdotted =>
    have hnot : Utf8.replacement ∉ ['i', Char.ofNat 0x307] := by decide
    refine iff_of_false hnot ?_
    rintro rfl
    omega
  next =>
    rw [List.mem_singleton, eq_comm (a := Utf8.replacement) (b := c),
      ← lowerChar_eq_replacement_iff, innerSigma]
    split
    next hfinal => exact iff_of_false hsigma.1 (fun h => hsigma.2 (h.symm.trans hfinal))
    next => exact eq_comm

/-! ### Blanks at the ends -/

/-- The characters that a character becomes are no blanks if it is none. -/
theorem exists_lowerFrom_cons (hc : isBlank c = false) (before rest : List Char) :
    ∃ lowered, lowered ≠ [] ∧ (∀ d ∈ lowered, isBlank d = false) ∧
      lowerFrom before (c :: rest) = lowered ++ lowerFrom (c :: before) rest := by
  rcases lowerFrom_cons_cases before c rest with ⟨-, d, hd, heq⟩ | ⟨-, heq⟩ | ⟨-, -, heq⟩
  · have hsolid : isBlank d = false := by
      rcases hd with rfl | rfl <;> decide
    exact ⟨[d], by simp, by simpa using hsolid, heq⟩
  · have hsolid : ∀ d ∈ ['i', Char.ofNat 0x307], isBlank d = false :=
      List.forall_mem_cons.mpr ⟨by decide, List.forall_mem_singleton.mpr (by decide)⟩
    exact ⟨['i', Char.ofNat 0x307], by simp, hsolid, heq⟩
  · exact ⟨[lowerChar c], by simp, by simpa using isBlank_lowerChar hc, heq⟩

theorem exists_lowerFrom_concat (hc : isBlank c = false) (before cs : List Char) :
    ∃ front lowered, lowered ≠ [] ∧ (∀ d ∈ lowered, isBlank d = false) ∧
      lowerFrom before (cs ++ [c]) = front ++ lowered := by
  induction cs generalizing before with
  | nil =>
      obtain ⟨lowered, hne, hsolid, heq⟩ := exists_lowerFrom_cons hc before []
      exact ⟨[], lowered, hne, hsolid, by simpa [lowerFrom] using heq⟩
  | cons d cs ih =>
      obtain ⟨first, heq, -⟩ := lowerFrom_cons before d (cs ++ [c])
      obtain ⟨front, lowered, hne, hsolid, hrest⟩ := ih (d :: before)
      exact ⟨first ++ front, lowered, hne, hsolid, by
        rw [List.cons_append, heq, hrest, List.append_assoc]⟩

/-- Lowering leaves no blanks at the ends of a text where there are none. -/
theorem trim_lower_trim (text : String) : trim (lower (trim text)) = lower (trim text) := by
  obtain ⟨-, hhead, hlast⟩ := stripped_trimList text.toList
  rw [lower, trim, trim, String.toList_ofList, String.toList_ofList]
  generalize trimList text.toList = ts at hhead hlast
  congr 1
  apply trimList_eq_self
  · cases ts with
    | nil => simp [lowerFrom]
    | cons c ts =>
        obtain ⟨lowered, hne, hsolid, heq⟩ := exists_lowerFrom_cons (hhead c rfl) [] ts
        obtain ⟨d, lowered, rfl⟩ := List.exists_cons_of_ne_nil hne
        rw [heq]
        simpa using hsolid d List.mem_cons_self
  · rcases List.eq_nil_or_concat' ts with rfl | ⟨front, c, rfl⟩
    · simp [lowerFrom]
    · obtain ⟨front, lowered, hne, hsolid, heq⟩ :=
        exists_lowerFrom_concat (hlast c (by simp)) [] front
      obtain ⟨lowered, d, rfl⟩ := (List.eq_nil_or_concat' lowered).resolve_left hne
      rw [heq, ← List.append_assoc]
      simpa using hsolid d (by simp)

end ArchiveExport.Text
