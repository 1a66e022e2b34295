import ArchiveExport.Text.Lowercase

/-!
# Lowering twice

No run of the table of lower case forms leads to a character that a run covers. So a text in lower
case stays as it is when it is lowered again.
-/

namespace ArchiveExport.Text

namespace CaseRun

/-- The lower case of the first character of a run. -/
def lowest (run : CaseRun) : Nat := (run.first + run.shift).toNat

/-- The lower case of the last character of a run. -/
def highest (run : CaseRun) : Nat := (run.last + run.shift).toNat

/-- Whether a run covers no lower case form of another one: the forms lie on one side of it, or
between its characters, or there is only one. -/
def avoids (run forms : CaseRun) : Bool :=
  forms.highest < run.first || run.last < forms.lowest ||
    (forms.stride % run.stride = 0 && run.first ≤ forms.lowest &&
      (forms.lowest - run.first) % run.stride ≠ 0) ||
    (forms.first = forms.last && !run.covers forms.lowest)

/-- Whether the forms of a run are characters that no run covers, none of them the dotted capital I
or a character up to the backquote. -/
def isSettled (run : CaseRun) : Bool :=
  0 < run.stride && 0 ≤ run.first + run.shift && 0x60 < run.lowest &&
    (run.highest < 0x130 || 0x130 < run.lowest) &&
    (run.highest < 0xD800 || (0xDFFF < run.lowest && run.highest < 0x110000)) &&
    lowercaseRuns.all (·.avoids run)

end CaseRun

set_option maxRecDepth 10000 in
theorem all_isSettled : lowercaseRuns.all CaseRun.isSettled = true := by
  have hforms : lowercaseRuns.all fun run =>
      0 < run.stride && 0 ≤ run.first + run.shift && 0x60 < run.lowest &&
        (run.highest < 0x130 || 0x130 < run.lowest) &&
        (run.highest < 0xD800 || (0xDFFF < run.lowest && run.highest < 0x110000)) := by
    decide +kernel
  -- most pairs are told apart by their first two comparisons, which come first here
  have hpairs : lowercaseRuns.all fun run => lowercaseRuns.all fun other =>
      Nat.blt run.highest other.first ||
        (Nat.blt other.last run.lowest || other.avoids run) := by
    decide +kernel
  rw [List.all_eq_true] at hforms hpairs ⊢
  intro run hrun
  rw [CaseRun.isSettled, hforms run hrun, Bool.true_and, List.all_eq_true]
  intro other hother
  have hpair := List.all_eq_true.mp (hpairs run hrun) other hother
  rw [Bool.or_eq_true, Bool.or_eq_true, Nat.blt_eq, Nat.blt_eq] at hpair
  rcases hpair with habove | hbelow | havoids
  · simp [CaseRun.avoids, habove]
  · simp [CaseRun.avoids, hbelow]
  · exact havoids

namespace CaseRun

/-- A run that avoids the forms of another one covers none of them. -/
theorem covers_eq_false_of_avoids {run forms : CaseRun} {n : Nat} (h : run.avoids forms = true)
    (hshift : 0 ≤ forms.first + forms.shift)
    (hn : forms.covers n = true) : run.covers (n + forms.shift).toNat = false := by
  simp only [covers, Bool.and_eq_true, decide_eq_true_eq] at hn
  obtain ⟨⟨hfirst, hlast⟩, hstride⟩ := hn
  have hlowest : forms.lowest + (n - forms.first) = (n + forms.shift).toNat := by
    rw [lowest]
    omega
  have hhighest : (n + forms.shift).toNat ≤ forms.highest := by
    rw [highest]
    omega
  cases hcovers : run.covers (n + forms.shift).toNat with
  | false => rfl
  | true =>
      have hparts := hcovers
      simp only [covers, Bool.and_eq_true, decide_eq_true_eq] at hparts
      obtain ⟨⟨hfirst', hlast'⟩, hstride'⟩ := hparts
      simp only [avoids, Bool.or_eq_true, Bool.and_eq_true, decide_eq_true_eq] at h
      rcases h with ((habove | hbelow) | ⟨⟨hmultiple, hfrom⟩, hbetween⟩) | ⟨hsingle, hapart⟩
      · omega
      · omega
      · -- both are as far from the run's first character, up to steps of the run
        obtain ⟨a, ha⟩ := Nat.dvd_of_mod_eq_zero hstride
        obtain ⟨b, hb⟩ := Nat.dvd_of_mod_eq_zero hmultiple
        have hsteps : (n + forms.shift).toNat - run.first =
            forms.lowest - run.first + run.stride * (b * a) := by
          rw [← hlowest, ha, hb, Nat.mul_assoc]
          omega
        rw [hsteps, Nat.add_mul_mod_self_left] at hstride'
        exact absurd hstride' hbetween
      · obtain rfl : n = forms.first := by omega
        simp only [lowest, hcovers, Bool.not_true, Bool.false_eq_true] at hapart

end CaseRun

/-! ### Characters in lower case -/

/-- A character that lowering leaves as it is, wherever it stands. -/
structure Lowered (c : Char) : Prop where
  same : lowerChar c = c
  notSigma : c.toNat ≠ 0x3A3
  notDotted : c.toNat ≠ 0x130

instance (c : Char) : Decidable (Lowered c) :=
  decidable_of_iff (lowerChar c = c ∧ c.toNat ≠ 0x3A3 ∧ c.toNat ≠ 0x130)
    ⟨fun ⟨hsame, hsigma, hdotted⟩ => ⟨hsame, hsigma, hdotted⟩,
      fun h => ⟨h.same, h.notSigma, h.notDotted⟩⟩

theorem toNat_ofNat {n : Nat} (h : n.isValidChar) : (Char.ofNat n).toNat = n := by
  rw [Char.ofNat, dif_pos h]
  rfl

/-- The runs cover the capital sigma and the capitals of the alphabet. -/
theorem covers_of_capital {n : Nat} (h : n = 0x3A3 ∨ (0x41 ≤ n ∧ n ≤ 0x5A)) :
    ∃ run ∈ lowercaseRuns, run.covers n = true := by
  rcases h with rfl | ⟨hfirst, hlast⟩
  · have hany : lowercaseRuns.any (·.covers 0x3A3) = true := by decide
    exact List.any_eq_true.mp hany
  · refine ⟨⟨0x41, 0x5A, 1, 32⟩, List.mem_cons_self, ?_⟩
    simp [CaseRun.covers, hfirst, hlast, Nat.mod_one]

/-- A character that no run covers is in lower case. -/
theorem lowered_of_not_covered {c : Char} (hdotted : c.toNat ≠ 0x130)
    (h : ∀ run ∈ lowercaseRuns, run.covers c.toNat = false) : Lowered c := by
  have hcapital : ¬ (c.toNat = 0x3A3 ∨ (0x41 ≤ c.toNat ∧ c.toNat ≤ 0x5A)) := by
    intro hcapital
    obtain ⟨run, hrun, hcovers⟩ := covers_of_capital hcapital
    simp [h run hrun] at hcovers
  have hnone : lowercaseRuns.find? (·.covers c.toNat) = none := by
    rw [List.find?_eq_none]
    intro run hrun
    simp [h run hrun]
  refine ⟨?_, fun hsigma => hcapital (Or.inl hsigma), hdotted⟩
  rw [lowerChar]
  split
  · rw [if_neg fun hletter => hcapital (Or.inr hletter)]
  · rw [hnone]

/-- A form is a character in lower case, and not one of the first ones. -/
theorem lowered_of_covers {run : CaseRun} {n : Nat} (hrun : run ∈ lowercaseRuns)
    (hn : run.covers n = true) :
    Lowered (Char.ofNat (n + run.shift).toNat) ∧
      0x60 < (Char.ofNat (n + run.shift).toNat).toNat := by
  have hsettled := List.all_eq_true.mp all_isSettled run hrun
  simp only [CaseRun.isSettled, Bool.and_eq_true, Bool.or_eq_true, decide_eq_true_eq] at hsettled
  obtain ⟨⟨⟨⟨⟨-, hshift⟩, hbeyond⟩, hdotted⟩, hvalid⟩, havoids⟩ := hsettled
  have hparts := hn
  simp only [CaseRun.covers, Bool.and_eq_true, decide_eq_true_eq] at hparts
  have hlowest : run.lowest ≤ (n + run.shift).toNat := by
    rw [CaseRun.lowest]
    omega
  have hhighest : (n + run.shift).toNat ≤ run.highest := by
    rw [CaseRun.highest]
    omega
  have htoNat : (Char.ofNat (n + run.shift).toNat).toNat = (n + run.shift).toNat := by
    apply toNat_ofNat
    rw [Nat.isValidChar]
    omega
  rw [htoNat]
  refine ⟨lowered_of_not_covered ?_ ?_, by omega⟩
  · rw [htoNat]
    omega
  · intro other hother
    rw [htoNat]
    exact CaseRun.covers_eq_false_of_avoids (List.all_eq_true.mp havoids other hother) hshift hn

/-- Lowering a character leaves it as it is or takes the form that a run gives. -/
theorem lowerChar_eq (c : Char) :
    lowerChar c = c ∨ ∃ run ∈ lowercaseRuns, run.covers c.toNat = true ∧
      lowerChar c = Char.ofNat (c.toNat + run.shift).toNat := by
  rw [lowerChar]
  split
  · by_cases hcapital : 0x41 ≤ c.toNat ∧ c.toNat ≤ 0x5A
    · refine Or.inr ⟨⟨0x41, 0x5A, 1, 32⟩, List.mem_cons_self, ?_, ?_⟩
      · simp [CaseRun.covers, hcapital.1, hcapital.2, Nat.mod_one]
      · rw [if_pos hcapital]
        rfl
    · rw [if_neg hcapital]
      exact Or.inl rfl
  · split
    next run hrun =>
      have hcovers := List.find?_some hrun
      exact Or.inr ⟨run, List.mem_of_find?_eq_some hrun, hcovers, rfl⟩
    next => exact Or.inl rfl

/-- The lower case of a character is in lower case, and one of the first characters only where the
character was so itself. -/
theorem lowered_lowerChar {c : Char} (hsigma : c.toNat ≠ 0x3A3) (hdotted : c.toNat ≠ 0x130) :
    Lowered (lowerChar c) ∧ (lowerChar c = c ∨ 0x60 < (lowerChar c).toNat) := by
  rcases lowerChar_eq c with hsame | ⟨run, hrun, hcovers, hform⟩
  · rw [hsame]
    exact ⟨⟨hsame, hsigma, hdotted⟩, Or.inl rfl⟩
  · obtain ⟨hlowered, hbeyond⟩ := lowered_of_covers hrun hcovers
    rw [hform]
    exact ⟨hlowered, Or.inr hbeyond⟩

/-! ### Texts -/

/-- What one character of a text becomes. -/
theorem lowerFrom_cons (before : List Char) (c : Char) (rest : List Char) :
    ∃ lowered, lowerFrom before (c :: rest) = lowered ++ lowerFrom (c :: before) rest ∧
      lowered ≠ [] ∧ ∀ d ∈ lowered, Lowered d ∧ (d = c ∨ 0x60 < d.toNat) := by
  have hfixed : ∀ d ∈ ['ς', 'σ', 'i', Char.ofNat 0x307], Lowered d ∧ 0x60 < d.toNat := by
    intro d hd
    simp only [List.mem_cons, List.not_mem_nil, or_false] at hd
    rcases hd with rfl | rfl | rfl | rfl
    all_goals exact ⟨⟨by decide, by decide, by decide⟩, by decide⟩
  refine ⟨_, rfl, ?_, ?_⟩
  · split
    · split <;> simp
    · split <;> simp
  · intro d hd
    by_cases hsigma : c.toNat = 0x3A3
    · have hform : d ∈ ['ς', 'σ', 'i', Char.ofNat 0x307] := by
        rw [if_pos hsigma] at hd
        split at hd <;> simp_all
      exact ⟨(hfixed d hform).1, Or.inr (hfixed d hform).2⟩
    rw [if_neg hsigma] at hd
    by_cases hdotted : c.toNat = 0x130
    · rw [if_pos hdotted] at hd
      have hform : d ∈ ['ς', 'σ', 'i', Char.ofNat 0x307] :=
        List.mem_cons_of_mem _ (List.mem_cons_of_mem _ hd)
      exact ⟨(hfixed d hform).1, Or.inr (hfixed d hform).2⟩
    · rw [if_neg hdotted] at hd
      obtain rfl := List.mem_singleton.mp hd
      exact lowered_lowerChar hsigma hdotted

/-- Every character of a lowered text is in lower case. -/
theorem lowered_of_mem_lowerFrom {before cs : List Char} {d : Char} (hd : d ∈ lowerFrom before cs) :
    Lowered d ∧ (d ∈ cs ∨ 0x60 < d.toNat) := by
  induction cs generalizing before with
  | nil => simp [lowerFrom] at hd
  | cons c cs ih =>
      obtain ⟨lowered, heq, -, hlowered⟩ := lowerFrom_cons before c cs
      rw [heq] at hd
      rcases List.mem_append.mp hd with hfirst | hrest
      · obtain ⟨hd', hsame⟩ := hlowered d hfirst
        refine ⟨hd', hsame.imp_left ?_⟩
        rintro rfl
        exact List.mem_cons_self
      · obtain ⟨hd', hmem⟩ := ih hrest
        exact ⟨hd', hmem.imp_left (List.mem_cons_of_mem c)⟩

/-- A text in lower case stays as it is. -/
theorem lowerFrom_of_lowered {before cs : List Char} (h : ∀ c ∈ cs, Lowered c) :
    lowerFrom before cs = cs := by
  induction cs generalizing before with
  | nil => rfl
  | cons c cs ih =>
      obtain ⟨hsame, hsigma, hdotted⟩ := h c List.mem_cons_self
      rw [lowerFrom, if_neg hsigma, if_neg hdotted, hsame,
        ih fun d hd => h d (List.mem_cons_of_mem c hd)]
      rfl

/-- Lowering twice is lowering once. -/
theorem lower_lower (text : String) : lower (lower text) = lower text := by
  have hlowered : ∀ c ∈ (lower text).toList, Lowered c := by
    intro c hc
    rw [lower, String.toList_ofList] at hc
    exact (lowered_of_mem_lowerFrom hc).1
  rw [lower, lowerFrom_of_lowered hlowered, String.ofList_toList]

end ArchiveExport.Text
