import ArchiveExport.Script.Glob
import Mathlib.Data.List.Infix

/-!
# Coverage of wildcard patterns

A scan remembers the last star only. This module shows that nothing is lost by that: whatever an
earlier star could still reach, the last one reaches too. Every scan therefore ends with the verdict
that the clauses of `Glob.Covers` call for, and preparing a pattern changes no verdict.
-/

namespace ArchiveExport.Glob

/-! ### What the clauses of a pattern say -/

theorem covers_nil_iff {c : List Char} : Covers [] c ↔ c = [] := by
  constructor
  · intro h
    cases h
    rfl
  · rintro rfl
    exact .nil

theorem covers_star_nil_iff {p : List Char} : Covers (star :: p) [] ↔ Covers p [] := by
  constructor
  · intro h
    cases h with
    | skip h => exact h
  · exact .skip

theorem covers_star_cons_iff {p c : List Char} {y : Char} :
    Covers (star :: p) (y :: c) ↔ Covers p (y :: c) ∨ Covers (star :: p) c := by
  constructor
  · intro h
    cases h with
    | skip h => exact Or.inl h
    | swallow _ h => exact Or.inr h
    | same _ hx _ _ => exact absurd rfl hx
  · rintro (h | h)
    · exact .skip h
    · exact .swallow y h

theorem covers_cons_cons_iff {x y : Char} (hx : x ≠ star) {p c : List Char} :
    Covers (x :: p) (y :: c) ↔ (x = single ∨ x = y) ∧ Covers p c := by
  constructor
  · intro h
    cases h with
    | skip _ => exact absurd rfl hx
    | swallow _ _ => exact absurd rfl hx
    | one _ h => exact ⟨Or.inl rfl, h⟩
    | same _ _ _ h => exact ⟨Or.inr rfl, h⟩
  · rintro ⟨hxy, h⟩
    by_cases hs : x = single
    · subst hs
      exact .one y h
    · obtain rfl := hxy.resolve_left hs
      exact .same x hx hs h

theorem not_covers_cons_nil {x : Char} (hx : x ≠ star) {p : List Char} :
    ¬Covers (x :: p) [] := by
  intro h
  cases h with
  | skip _ => exact hx rfl

/-- Nothing but stars covers the empty candidate. -/
theorem covers_nil_right_iff {p : List Char} : Covers p [] ↔ ∀ x ∈ p, x = star := by
  induction p with
  | nil => simp [covers_nil_iff]
  | cons x p ih =>
      by_cases hx : x = star
      · subst hx
        rw [covers_star_nil_iff, ih]
        simp
      · simp [not_covers_cons_nil hx, hx]

/-! ### Segments without stars -/

/-- A segment without stars takes as many characters as it has. -/
theorem covers_append_of_star_not_mem {segment p c : List Char} (hstar : star ∉ segment)
    (h : Covers (segment ++ p) c) :
    segment.length ≤ c.length ∧ Covers p (c.drop segment.length) := by
  induction segment generalizing c with
  | nil => exact ⟨Nat.zero_le _, h⟩
  | cons x segment ih =>
      have hx : x ≠ star := fun hx => hstar (by simp [hx])
      cases c with
      | nil => exact absurd h (not_covers_cons_nil hx)
      | cons y c =>
          have htail := ((covers_cons_cons_iff hx).mp h).2
          have hrest := ih (fun hs => hstar (List.mem_cons_of_mem x hs)) htail
          exact ⟨Nat.succ_le_succ hrest.1, hrest.2⟩

/-- What a star covers ends in what the pattern behind it covers. -/
theorem exists_suffix_of_covers_star {p c : List Char} (h : Covers (star :: p) c) :
    ∃ t, t <:+ c ∧ Covers p t := by
  induction c with
  | nil => exact ⟨[], List.suffix_refl _, covers_star_nil_iff.mp h⟩
  | cons y c ih =>
      rcases covers_star_cons_iff.mp h with hp | hs
      · exact ⟨y :: c, List.suffix_refl _, hp⟩
      · obtain ⟨t, ht, hp⟩ := ih hs
        exact ⟨t, ht.trans (List.suffix_cons y c), hp⟩

/-- A star swallows whatever stands in front of what it covers. -/
theorem covers_star_of_suffix {p t c : List Char} (ht : t <:+ c)
    (h : Covers (star :: p) t) : Covers (star :: p) c := by
  obtain ⟨front, rfl⟩ := ht
  induction front with
  | nil => exact h
  | cons y front ih => exact .swallow y ih

namespace Scan

/-! ### What a scan has passed -/

/-- Since the star that it would resume at, a scan has passed a segment without stars and as many
characters of the candidate. -/
def Sound (s : Scan) : Prop :=
  ∀ r ∈ s.resume, ∃ segment, star ∉ segment ∧ r.pattern = segment ++ s.pattern ∧
    s.candidate <:+ r.candidate ∧ r.candidate.length = segment.length + s.candidate.length

/-- The verdict that a scan should come to: what is left of the pattern covers what is left of the
candidate, or it does so once the last star has swallowed more. -/
def Means (s : Scan) : Prop :=
  Covers s.pattern s.candidate ∨
    ∃ r ∈ s.resume, Covers (star :: r.pattern) r.candidate.tail

theorem sound_start (p c : List Char) : (start p c).Sound := by
  intro r hr
  simp [start] at hr

theorem means_start_iff (p c : List Char) : (start p c).Means ↔ Covers p c := by
  simp [Means, start]

theorem sound_resume {p c : List Char}
    {hle : ∀ r ∈ some (Resume.mk p c),
      p.length ≤ r.pattern.length ∧ c.length ≤ r.candidate.length} :
    Sound ⟨p, c, some ⟨p, c⟩, hle⟩ := by
  intro r hr
  obtain rfl := Option.some.inj hr
  exact ⟨[], by simp, by simp, List.suffix_refl _, by simp⟩

/-- Behind a star, an earlier one is of no more use: what the earlier star reaches by swallowing
more, the later one covers from where it stands. -/
theorem covers_of_resume {s : Scan} (hs : s.Sound) {p : List Char} (hp : s.pattern = star :: p)
    {r : Resume} (hr : r ∈ s.resume) (h : Covers (star :: r.pattern) r.candidate.tail) :
    Covers s.pattern s.candidate := by
  obtain ⟨segment, hstar, hpattern, hsuffix, hlength⟩ := hs r hr
  obtain ⟨t, ht, hcovers⟩ := exists_suffix_of_covers_star h
  rw [hpattern] at hcovers
  obtain ⟨hle, hrest⟩ := covers_append_of_star_not_mem hstar hcovers
  have htsuffix : t <:+ r.candidate := ht.trans (List.tail_suffix _)
  have hdrop : t.drop segment.length <:+ s.candidate := by
    refine List.suffix_of_suffix_length_le ((List.drop_suffix _ _).trans htsuffix) hsuffix ?_
    have htlength := htsuffix.length_le
    rw [List.length_drop]
    omega
  rw [hp] at hrest ⊢
  exact covers_star_of_suffix hdrop hrest

/-- At the end of the candidate the last star has nothing more to give. -/
theorem covers_of_resume_of_nil {s : Scan} (hs : s.Sound) (hc : s.candidate = [])
    {r : Resume} (hr : r ∈ s.resume) (h : Covers (star :: r.pattern) r.candidate.tail) :
    Covers s.pattern s.candidate := by
  obtain ⟨segment, hstar, hpattern, -, hlength⟩ := hs r hr
  obtain ⟨t, ht, hcovers⟩ := exists_suffix_of_covers_star h
  rw [hpattern] at hcovers
  obtain ⟨hle, hrest⟩ := covers_append_of_star_not_mem hstar hcovers
  have htlength := ht.length_le
  rw [List.length_tail, hlength, hc, List.length_nil, Nat.add_zero] at htlength
  have hnil : t = [] := List.length_eq_zero_iff.mp (by omega)
  rw [hc]
  simpa [hnil] using hrest

/-! ### Single steps -/

/-- Where a character fails, the verdict is left to the last star. -/
theorem means_iff_resume {s : Scan} (h : ¬Covers s.pattern s.candidate) :
    s.Means ↔ ∃ r ∈ s.resume, Covers (star :: r.pattern) r.candidate.tail :=
  or_iff_right h

/-- Swallowing one character more is to try the pattern behind the star there, or more still. -/
theorem means_retry_iff {p c : List Char}
    {hle : ∀ r ∈ some (Resume.mk p c),
      p.length ≤ r.pattern.length ∧ c.length ≤ r.candidate.length} :
    Means ⟨p, c, some ⟨p, c⟩, hle⟩ ↔ Covers (star :: p) c := by
  cases c with
  | nil => simp [Means, covers_star_nil_iff]
  | cons y c => simp [Means, covers_star_cons_iff]

/-- What a step says about a scan. -/
def Agrees (s : Scan) : Step → Prop
  | .verdict covered => covered = true ↔ s.Means
  | .next t => t.Sound ∧ (t.Means ↔ s.Means)

theorem agrees_retry {s : Scan} (hs : s.Sound) (h : ¬Covers s.pattern s.candidate) :
    s.Agrees (retry s.resume) := by
  have hmeans := means_iff_resume h
  cases hr : s.resume with
  | none => simp [retry, Agrees, hmeans, hr]
  | some r =>
      obtain ⟨p, c⟩ := r
      cases c with
      | nil =>
          obtain ⟨segment, -, -, -, hlength⟩ := hs ⟨p, []⟩ hr
          have hc : s.candidate = [] := List.length_eq_zero_iff.mp (by simp at hlength; omega)
          have hno : ¬s.Means := by
            rw [hmeans]
            rintro ⟨r, hr, hcovers⟩
            exact h (covers_of_resume_of_nil hs hc hr hcovers)
          simp [retry, Agrees, hno]
      | cons y c =>
          refine ⟨sound_resume, ?_⟩
          rw [means_retry_iff, hmeans, hr]
          simp

/-- A step keeps what a scan has passed and what it means, and a verdict tells what it means. -/
theorem agrees_step {s : Scan} (hs : s.Sound) : s.Agrees s.step := by
  obtain ⟨p, c, resume, hle⟩ := s
  cases c with
  | nil =>
      have hmeans : Means ⟨p, [], resume, hle⟩ ↔ Covers p [] := by
        constructor
        · rintro (h | ⟨r, hr, h⟩)
          · exact h
          · exact covers_of_resume_of_nil hs rfl hr h
        · exact Or.inl
      simp only [step, Agrees, hmeans, covers_nil_right_iff, List.all_eq_true, decide_eq_true_eq]
  | cons y c =>
      cases p with
      | nil => exact agrees_retry hs fun h => by simp [covers_nil_iff] at h
      | cons x p =>
          by_cases hx : x = star
          · subst hx
            have hmeans : Means ⟨star :: p, y :: c, resume, hle⟩ ↔ Covers (star :: p) (y :: c) := by
              constructor
              · rintro (h | ⟨r, hr, h⟩)
                · exact h
                · exact covers_of_resume hs rfl hr h
              · exact Or.inl
            simp only [step, if_pos, Agrees]
            exact ⟨sound_resume, means_retry_iff.trans hmeans.symm⟩
          by_cases hxy : x = single ∨ x = y
          · simp only [step, if_neg hx, if_pos hxy, Agrees]
            constructor
            · intro r hr
              obtain ⟨segment, hstar, hpattern, hsuffix, hlength⟩ := hs r hr
              refine ⟨segment ++ [x], ?_, ?_, ?_, ?_⟩
              · simpa [hstar] using fun h => hx h.symm
              · simpa using hpattern
              · exact (List.suffix_cons y c).trans hsuffix
              · simp only [List.length_cons] at hlength
                simp only [List.length_append, List.length_singleton]
                omega
            · simp only [Means, covers_cons_cons_iff hx, hxy, true_and]
          · simp only [step, if_neg hx, if_neg hxy]
            refine agrees_retry (s := ⟨x :: p, y :: c, resume, hle⟩) hs fun h => ?_
            exact hxy ((covers_cons_cons_iff hx).mp h).1

/-! ### Whole scans -/

/-- A scan comes to a verdict after a number of steps. -/
inductive Ends : Nat → Scan → Bool → Prop
  | verdict {s : Scan} {covered : Bool} (h : s.step = .verdict covered) : Ends 0 s covered
  | next {n : Nat} {s t : Scan} {covered : Bool} (h : s.step = .next t) (ht : Ends n t covered) :
      Ends (n + 1) s covered

/-- Every scan comes to the verdict of its run, within the bound on its steps. -/
theorem exists_ends_run (s : Scan) : ∃ n ≤ s.bound, Ends n s s.run := by
  induction s using run.induct with
  | case1 s covered h =>
      rw [run]
      split
      next covered' h' => exact ⟨0, Nat.zero_le _, .verdict h'⟩
      next t h' => simp [h] at h'
  | case2 s t h hlt ih =>
      obtain ⟨n, hn, hends⟩ := ih
      rw [run]
      split
      next covered h' => simp [h] at h'
      next t' h' =>
        obtain rfl : t = t' := by simpa [h] using h'
        exact ⟨n + 1, by omega, .next h hends⟩

/-- The verdict of a sound scan is what it means. -/
theorem verdict_iff_means {n : Nat} {s : Scan} {covered : Bool} (hends : Ends n s covered)
    (hs : s.Sound) : covered = true ↔ s.Means := by
  induction hends with
  | verdict h =>
      have hstep := agrees_step hs
      rwa [h] at hstep
  | next h ht ih =>
      have hstep := agrees_step hs
      rw [h] at hstep
      exact (ih hstep.1).trans hstep.2

end Scan

theorem run_start_iff (p c : List Char) : (Scan.start p c).run = true ↔ Covers p c := by
  obtain ⟨n, -, hends⟩ := Scan.exists_ends_run (.start p c)
  rw [Scan.verdict_iff_means hends (Scan.sound_start p c), Scan.means_start_iff]

/-! ### Prepared patterns -/

/-- Two stars in a row are as good as one. -/
theorem covers_star_star_iff {p c : List Char} :
    Covers (star :: star :: p) c ↔ Covers (star :: p) c := by
  constructor
  · intro h
    obtain ⟨t, ht, hp⟩ := exists_suffix_of_covers_star h
    exact covers_star_of_suffix ht hp
  · exact .skip

/-- Patterns that cover the same candidates still do so behind one more character. -/
theorem covers_cons_congr {p q : List Char} (h : ∀ c, Covers p c ↔ Covers q c) (x : Char)
    (c : List Char) : Covers (x :: p) c ↔ Covers (x :: q) c := by
  by_cases hx : x = star
  · subst hx
    induction c with
    | nil => rw [covers_star_nil_iff, covers_star_nil_iff, h]
    | cons y c ih => rw [covers_star_cons_iff, covers_star_cons_iff, h, ih]
  · cases c with
    | nil => simp [not_covers_cons_nil hx]
    | cons y c => rw [covers_cons_cons_iff hx, covers_cons_cons_iff hx, h]

/-- One star in place of every run of stars changes nothing. -/
theorem covers_collapseStars_iff (p c : List Char) : Covers (collapseStars p) c ↔ Covers p c := by
  induction p generalizing c with
  | nil => rfl
  | cons x p ih =>
      rw [collapseStars]
      split
      next h =>
        obtain ⟨rfl, hhead⟩ := h
        cases p with
        | nil => simp at hhead
        | cons y p =>
            obtain rfl : y = star := by simpa using hhead
            rw [ih, covers_star_star_iff]
      next h => exact covers_cons_congr ih x c

/-- A pattern without wildcards covers itself only. -/
theorem covers_iff_eq_of_no_wildcard {p c : List Char} (h : ∀ x ∈ p, x ≠ star ∧ x ≠ single) :
    Covers p c ↔ p = c := by
  induction p generalizing c with
  | nil => rw [covers_nil_iff, eq_comm]
  | cons x p ih =>
      obtain ⟨hx, hs⟩ := h x List.mem_cons_self
      cases c with
      | nil => simp [not_covers_cons_nil hx]
      | cons y c =>
          rw [covers_cons_cons_iff hx, ih fun z hz => h z (List.mem_cons_of_mem x hz)]
          simp [hs]

theorem hasWildcard_eq_false_iff {text : String} :
    hasWildcard text = false ↔ ∀ x ∈ text.toList, x ≠ star ∧ x ≠ single := by
  simp [hasWildcard]

/-- A prepared pattern accepts what its pattern covers, on both of its paths. -/
theorem accepts_ofPattern_iff (pattern candidate : String) :
    (Matcher.ofPattern pattern).accepts candidate = true ↔
      Covers pattern.toList candidate.toList := by
  have hcollapsed := covers_collapseStars_iff pattern.toList candidate.toList
  by_cases hwild : hasWildcard (String.ofList (collapseStars pattern.toList)) = true
  · rw [← hcollapsed, ← run_start_iff]
    simp [Matcher.accepts, Matcher.ofPattern, hwild, accepts]
  · have hplain := hasWildcard_eq_false_iff.mp (Bool.eq_false_iff.mpr hwild)
    rw [String.toList_ofList] at hplain
    rw [← hcollapsed, covers_iff_eq_of_no_wildcard hplain]
    simp [Matcher.accepts, Matcher.ofPattern, hwild, ← String.toList_inj]

/-- Every scan ends, it finds a candidate covered exactly when the pattern covers the whole of it,
and preparing the pattern changes no verdict. -/
theorem accepts_iff_covers (pattern candidate : String) :
    (∃ n ≤ candidate.length * (pattern.length + 1) + pattern.length,
      Scan.Ends n (.start pattern.toList candidate.toList) (accepts pattern candidate)) ∧
    (accepts pattern candidate = true ↔ Covers pattern.toList candidate.toList) ∧
    (Matcher.ofPattern pattern).accepts candidate = accepts pattern candidate := by
  have haccepts : accepts pattern candidate = true ↔ Covers pattern.toList candidate.toList :=
    run_start_iff _ _
  refine ⟨?_, haccepts, ?_⟩
  · exact Scan.exists_ends_run (.start pattern.toList candidate.toList)
  · rw [Bool.eq_iff_iff, accepts_ofPattern_iff, haccepts]

end ArchiveExport.Glob
