import ArchiveExport.Script.Directive
import Mathlib.Data.List.Basic

/-!
# Orders of a script

What a script asks for, read off its lines alone: the lines before the first malformed header are
in force, and each pattern among them is an order in the mode of the last header before it.
-/

namespace ArchiveExport

namespace Directive

/-- Whether a line is a malformed header. -/
def isMalformed (text : String) : Bool :=
  match parseLine text 0 with
  | .error _ => true
  | .ok _ => false

/-- The mode of a line that is a header. -/
def mode? (text : String) : Option Mode :=
  match parseLine text 0 with
  | .ok (some (.mode active _)) => some active
  | _ => none

/-- The pattern of a line that is neither empty nor a comment nor a header. -/
def pattern? (text : String) : Option String :=
  match parseLine text 0 with
  | .ok (some (.pattern text _)) => some text
  | _ => none

/-- The directive of another line. -/
def atLine (line : Int) : Directive → Directive
  | .comment text _ => .comment text line
  | .mode active _ => .mode active line
  | .pattern text _ => .pattern text line

/-- A line says the same wherever in a script it stands. -/
theorem parseLine_eq (text : String) (line : Int) :
    parseLine text line =
      match parseLine text 0 with
      | .error fault => .error { fault with line }
      | .ok directive => .ok (directive.map (atLine line)) := by
  simp only [parseLine]
  cases (Text.trim text).toList with
  | nil => rfl
  | cons c cs =>
      by_cases hcomment : c = '#'
      · subst hcomment
        rfl
      by_cases hheader : c = '['
      · subst hheader
        cases parseHeader (Text.trim text) <;> rfl
      · simp [hcomment, hheader, atLine]

theorem exists_directive {text : String} (h : isMalformed text = false) :
    ∃ directive, parseLine text 0 = .ok directive := by
  rw [isMalformed] at h
  cases hline : parseLine text 0 with
  | error fault => simp [hline] at h
  | ok directive => exact ⟨directive, rfl⟩

theorem parseFrom_cons_of_error {text : String} {fault : ScriptFault}
    (h : parseLine text 0 = .error fault) (line : Nat) (lines : List String) :
    (parseFrom line (text :: lines)).1 = [] := by
  rw [parseFrom, parseLine_eq, h]

/-- The directive of a line comes before those of the lines behind it. -/
theorem parseFrom_cons_of_ok {text : String} {directive : Option Directive}
    (h : parseLine text 0 = .ok directive) (line : Nat) (lines : List String) :
    parseFrom line (text :: lines) =
      ((directive.map (atLine line)).toList ++ (parseFrom (line + 1) lines).1,
        (parseFrom (line + 1) lines).2) := by
  rw [parseFrom, parseLine_eq, h]
  cases directive <;> rfl

end Directive

namespace Script

/-- The lines in force: those before the first malformed header. -/
def soundLines (lines : List String) : List String :=
  lines.takeWhile fun line => !Directive.isMalformed line

/-- The mode behind lines: that of the last header among them, or the mode they began with. -/
def modeAfter (first : Mode) (lines : List String) : Mode :=
  (lines.filterMap Directive.mode?).getLast?.getD first

/-- The patterns among lines, each in the mode behind the lines before it. -/
def orders (first : Mode) (lines : List String) : List (String × Mode) :=
  lines.zipIdx.filterMap fun (line, index) =>
    (Directive.pattern? line).map fun pattern => (pattern, modeAfter first (lines.take index))

theorem modeAfter_cons (first : Mode) (line : String) (lines : List String) :
    modeAfter first (line :: lines) =
      modeAfter ((Directive.mode? line).getD first) lines := by
  cases hmode : Directive.mode? line with
  | none => simp [modeAfter, hmode]
  | some active => simp [modeAfter, hmode, List.getLast?_cons]

/-- A header counts for the lines behind it. -/
theorem orders_cons (first : Mode) (line : String) (lines : List String) :
    orders first (line :: lines) =
      ((Directive.pattern? line).map fun pattern => (pattern, first)).toList ++
        orders ((Directive.mode? line).getD first) lines := by
  have hrest : (lines.zipIdx 1).filterMap (fun (text, index) =>
      (Directive.pattern? text).map fun pattern =>
        (pattern, modeAfter first ((line :: lines).take index))) =
      orders ((Directive.mode? line).getD first) lines := by
    rw [List.zipIdx_succ, List.filterMap_map, orders]
    refine List.filterMap_congr fun pair _ => ?_
    simp only [Function.comp_apply, List.take_succ_cons, modeAfter_cons]
  have hfirst : modeAfter first [] = first := rfl
  rw [orders, List.zipIdx_cons, List.filterMap_cons, ← hrest]
  cases hpattern : Directive.pattern? line with
  | none => simp [hpattern]
  | some pattern => simp [hpattern, hfirst]

/-- What the directive of a first line does to the orders behind it. -/
theorem orders_cons_of_ok {line : String} {directive : Option Directive}
    (h : Directive.parseLine line 0 = .ok directive) (first : Mode) (lines : List String) :
    orders first (line :: lines) =
      match directive with
      | some (.mode active _) => orders active lines
      | some (.pattern pattern _) => (pattern, first) :: orders first lines
      | _ => orders first lines := by
  rw [orders_cons]
  rcases directive with _ | comment | active | pattern
  all_goals simp [Directive.mode?, Directive.pattern?, h]

theorem soundLines_cons (line : String) (lines : List String) :
    soundLines (line :: lines) =
      if Directive.isMalformed line then [] else line :: soundLines lines := by
  rw [soundLines, List.takeWhile_cons]
  cases Directive.isMalformed line <;> rfl

/-- Lines parse without a fault exactly if none of them is a malformed header. -/
theorem parseFrom_eq_none_iff (line : Nat) (lines : List String) :
    (Directive.parseFrom line lines).2 = none ↔
      ∀ text ∈ lines, Directive.isMalformed text = false := by
  induction lines generalizing line with
  | nil => simp [Directive.parseFrom]
  | cons text lines ih =>
      cases hline : Directive.parseLine text 0 with
      | error fault =>
          have hbad : Directive.isMalformed text = true := by simp [Directive.isMalformed, hline]
          simp [Directive.parseFrom, Directive.parseLine_eq text line, hline, hbad]
      | ok directive =>
          have hgood : Directive.isMalformed text = false := by
            simp [Directive.isMalformed, hline]
          rw [Directive.parseFrom_cons_of_ok hline, ih, List.forall_mem_cons]
          exact (and_iff_right hgood).symm

/-- Lines without a malformed header parse without a fault. -/
theorem parseFrom_of_sound {lines : List String} (line : Nat)
    (h : ∀ text ∈ lines, Directive.isMalformed text = false) :
    (Directive.parseFrom line lines).2 = none :=
  (parseFrom_eq_none_iff line lines).mpr h

/-- Parsing breaks off at the first malformed header, whatever lines follow. -/
theorem parseFrom_append {sound rest : List String} {header : String} {line : Nat}
    {fault : ScriptFault} (h : ∀ text ∈ sound, Directive.isMalformed text = false)
    (hheader : Directive.parseLine header (line + sound.length : Nat) = .error fault) :
    Directive.parseFrom line (sound ++ header :: rest) =
      ((Directive.parseFrom line sound).1, some fault) := by
  induction sound generalizing line with
  | nil =>
      rw [List.nil_append, Directive.parseFrom]
      simp only [List.length_nil, Nat.add_zero] at hheader
      simp [hheader, Directive.parseFrom]
  | cons text sound ih =>
      have hlength : line + (text :: sound).length = line + 1 + sound.length := by
        rw [List.length_cons]
        omega
      rw [hlength] at hheader
      have hrest := ih (fun other hother => h other (List.mem_cons_of_mem _ hother)) hheader
      obtain ⟨directive, hline⟩ := Directive.exists_directive (h text List.mem_cons_self)
      rw [List.cons_append, Directive.parseFrom_cons_of_ok hline,
        Directive.parseFrom_cons_of_ok hline, hrest]

end Script

end ArchiveExport
