/-!
# Wildcard patterns

In a pattern a star stands for any run of characters, the empty one and separators included, a
question mark for exactly one character, and every other character for itself. A pattern has to
cover a candidate from end to end.

`Glob.Covers` says which candidates a pattern covers, clause by clause. `Glob.accepts` decides it by
a scan from left to right that remembers one star only, the last one it has passed: where a
character fails, the scan goes back to that star, which swallows one character more.
-/

namespace ArchiveExport.Glob

/-- The wildcard for any run of characters. -/
def star : Char := '*'

/-- The wildcard for one character. -/
def single : Char := '?'

/-- The candidates that a pattern covers. -/
inductive Covers : List Char → List Char → Prop
  | nil : Covers [] []
  | skip {p c} (h : Covers p c) : Covers (star :: p) c
  | swallow {p c} (x : Char) (h : Covers (star :: p) c) : Covers (star :: p) (x :: c)
  | one {p c} (x : Char) (h : Covers p c) : Covers (single :: p) (x :: c)
  | same {p c} (x : Char) (hx : x ≠ star) (hs : x ≠ single) (h : Covers p c) :
      Covers (x :: p) (x :: c)

/-- Whether a text has a wildcard. -/
def hasWildcard (text : String) : Bool :=
  text.toList.any fun c => c = star ∨ c = single

/-- One star in place of every run of stars. -/
def collapseStars : List Char → List Char
  | [] => []
  | c :: rest =>
    if c = star ∧ rest.head? = some star then collapseStars rest else c :: collapseStars rest

/-- The last star that a scan has passed: the pattern behind it, and the candidate behind what it
has swallowed so far. -/
structure Resume where
  pattern : List Char
  candidate : List Char

/-- A scan: what is left of the pattern and of the candidate, and where to resume. -/
structure Scan where
  pattern : List Char
  candidate : List Char
  resume : Option Resume := none
  resume_le : ∀ r ∈ resume,
    pattern.length ≤ r.pattern.length ∧ candidate.length ≤ r.candidate.length := by simp

namespace Scan

/-- The scan of a whole candidate. -/
def start (pattern candidate : List Char) : Scan := { pattern, candidate }

/-- What a step of a scan leads to. -/
inductive Step where
  | verdict (covered : Bool)
  | next (s : Scan)

/-- Let the last star swallow one character more. -/
def retry : Option Resume → Step
  | some ⟨p, _ :: c⟩ => .next ⟨p, c, some ⟨p, c⟩, by simp⟩
  | _ => .verdict false

/-- One step. A star first swallows nothing; at the end of the candidate only stars may be left. -/
def step : Scan → Step
  | ⟨p, [], _, _⟩ => .verdict (p.all (· = star))
  | ⟨[], _ :: _, resume, _⟩ => retry resume
  | ⟨x :: p, y :: c, resume, hle⟩ =>
    if x = star then .next ⟨p, y :: c, some ⟨p, y :: c⟩, by simp⟩
    else if x = single ∨ x = y then
      .next ⟨p, c, resume, fun r hr =>
        ⟨Nat.le_of_succ_le (hle r hr).1, Nat.le_of_succ_le (hle r hr).2⟩⟩
    else retry resume

/-- How many steps a scan has before it at most. A star that swallows one character more starts
the pattern behind it again, once for each character left. -/
def bound (s : Scan) : Nat :=
  match s.resume with
  | none => s.candidate.length * (s.pattern.length + 1) + s.pattern.length
  | some r => r.candidate.length * (r.pattern.length + 1) + s.pattern.length

theorem bound_lt_of_retry {p c : List Char} {resume : Option Resume} {t : Scan}
    (hle : ∀ r ∈ resume, p.length ≤ r.pattern.length ∧ c.length ≤ r.candidate.length)
    (h : retry resume = .next t) : t.bound < bound ⟨p, c, resume, hle⟩ := by
  cases resume with
  | none => simp [retry] at h
  | some r =>
    obtain ⟨q, candidate⟩ := r
    cases candidate with
    | nil => simp [retry] at h
    | cons y d =>
      injection h with h
      subst h
      simp only [bound, List.length_cons, Nat.succ_mul]
      omega

theorem bound_lt_of_step {s t : Scan} (h : s.step = .next t) : t.bound < s.bound := by
  match s with
  | ⟨_, [], _, _⟩ => simp [step] at h
  | ⟨[], _ :: _, _, hle⟩ => exact bound_lt_of_retry hle h
  | ⟨x :: p, y :: c, resume, hle⟩ =>
    simp only [step] at h
    split at h
    · injection h with h
      subst h
      cases resume with
      | none =>
        simp only [bound, List.length_cons, Nat.mul_add]
        omega
      | some r =>
        have hr := hle r rfl
        simp only [List.length_cons] at hr
        have hmul := Nat.mul_le_mul hr.2 hr.1
        simp only [bound, List.length_cons, Nat.mul_add, Nat.add_mul] at hmul ⊢
        omega
    · split at h
      · injection h with h
        subst h
        cases resume <;> simp only [bound, List.length_cons, Nat.add_mul, Nat.mul_add] <;> omega
      · exact bound_lt_of_retry hle h

/-- Scan to the end. -/
def run (s : Scan) : Bool :=
  match h : s.step with
  | .verdict covered => covered
  | .next t =>
    have := bound_lt_of_step h
    run t
termination_by s.bound

end Scan

/-- Whether a pattern covers the whole of a candidate. -/
def accepts (pattern candidate : String) : Bool :=
  (Scan.start pattern.toList candidate.toList).run

end ArchiveExport.Glob

namespace ArchiveExport

/-- A pattern prepared for many candidates. -/
structure Matcher where
  /-- The pattern with one star in place of every run of them. -/
  pattern : String
  /-- Whether the pattern has no wildcard. -/
  literal : Bool

namespace Matcher

/-- Prepare a pattern. -/
def ofPattern (pattern : String) : Matcher :=
  let collapsed := String.ofList (Glob.collapseStars pattern.toList)
  ⟨collapsed, !Glob.hasWildcard collapsed⟩

/-- Whether the prepared pattern covers the whole of a candidate. -/
def accepts (m : Matcher) (candidate : String) : Bool :=
  if m.literal then m.pattern = candidate else Glob.accepts m.pattern candidate

end Matcher

end ArchiveExport
