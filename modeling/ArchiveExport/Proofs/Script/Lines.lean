import ArchiveExport.Proofs.Script.Header
import ArchiveExport.Proofs.Script.Orders
import ArchiveExport.Proofs.Text.Blank

/-!
# Lines of a script

The grammar of scripts. A line says what the text between its blanks says, and a script says what
its lines say until one of them is a malformed header.
-/

namespace ArchiveExport

namespace Directive

/-- What a text without blanks around it says as a line of a script. -/
inductive Says (text : String) (line : Int) : Except ScriptFault (Option Directive) → Prop
  | nothing (h : text = "") : Says text line (.ok none)
  | comment (h : text.toList.head? = some '#') : Says text line (.ok (some (.comment text line)))
  | header {tokens : List String} {mode : Mode} (htokens : Brackets text tokens)
      (hmode : mode.SumOf tokens) : Says text line (.ok (some (.mode mode line)))
  | malformed {fault : HeaderFault} (hopen : text.toList.head? = some '[')
      (hfault : Malformed text fault) : Says text line (.error ⟨fault, text, line⟩)
  | pattern (hsolid : text ≠ "") (hcomment : text.toList.head? ≠ some '#')
      (hheader : text.toList.head? ≠ some '[') : Says text line (.ok (some (.pattern text line)))

/-- The directives of lines, each with the place of its line, counted from `first`. -/
def directivesFrom (first : Nat) (lines : List String) : List Directive :=
  (lines.zipIdx first).filterMap fun (text, line) => (parseLine text line).toOption.join

/-- What a script says: the directives of all its lines, or those of the lines before its first
malformed header and what is wrong with that. -/
inductive SaysAll : List String → List Directive × Option ScriptFault → Prop
  | sound {lines : List String}
      (h : ∀ text ∈ lines, ∃ directive, parseLine text 0 = .ok directive) :
      SaysAll lines (directivesFrom 1 lines, none)
  | broken {lines rest : List String} {header : String} {fault : ScriptFault}
      (h : ∀ text ∈ lines, ∃ directive, parseLine text 0 = .ok directive)
      (hheader : parseLine header (lines.length + 1) = .error fault) :
      SaysAll (lines ++ header :: rest) (directivesFrom 1 lines, some fault)

variable {text : String} {line : Int} {lines : List String}
  {result : Except ScriptFault (Option Directive)}

/-! ### One line -/

theorem says_parseLine (text : String) (line : Int) :
    Says (Text.trim text) line (parseLine text line) := by
  rw [parseLine]
  generalize Text.trim text = text
  split
  next hempty => exact .nothing (String.toList_eq_nil_iff.mp hempty)
  next rest hcomment => exact .comment (by rw [hcomment, List.head?_cons])
  next rest hheader =>
    have hopen : text.toList.head? = some '[' := by rw [hheader, List.head?_cons]
    cases hmode : parseHeader text with
    | ok mode =>
        obtain ⟨tokens, htokens, hsum⟩ := (parseHeader_eq_ok_iff hopen).mp hmode
        exact .header htokens hsum
    | error fault => exact .malformed hopen ((parseHeader_eq_error_iff hopen).mp hmode)
  next hempty hcomment hheader =>
    refine .pattern (fun h => hempty (String.toList_eq_nil_iff.mpr h)) (fun h => ?_) (fun h => ?_)
    · obtain ⟨rest, hrest⟩ := List.head?_eq_some_iff.mp h
      exact hcomment rest hrest
    · obtain ⟨rest, hrest⟩ := List.head?_eq_some_iff.mp h
      exact hheader rest hrest

/-- A text says one thing only. -/
theorem Says.eq_parseLine (h : Says (Text.trim text) line result) :
    parseLine text line = result := by
  have hcase : ∀ {c}, (Text.trim text).toList.head? = some c →
      ∃ rest, (Text.trim text).toList = c :: rest := List.head?_eq_some_iff.mp
  rw [parseLine]
  generalize Text.trim text = text at h hcase
  cases h with
  | nothing hempty =>
      subst hempty
      rfl
  | comment hcomment =>
      obtain ⟨rest, hrest⟩ := hcase hcomment
      simp only [hrest]
  | header htokens hmode =>
      have hopen := htokens.head?_eq
      obtain ⟨rest, hrest⟩ := hcase hopen
      simp only [hrest, (parseHeader_eq_ok_iff hopen).mpr ⟨_, htokens, hmode⟩]
  | malformed hopen hfault =>
      obtain ⟨rest, hrest⟩ := hcase hopen
      simp only [hrest, (parseHeader_eq_error_iff hopen).mpr hfault]
  | pattern hsolid hcomment hheader =>
      split
      next hempty => exact absurd (String.toList_eq_nil_iff.mp hempty) hsolid
      next rest hrest => exact absurd (by rw [hrest, List.head?_cons]) hcomment
      next rest hrest => exact absurd (by rw [hrest, List.head?_cons]) hheader
      next => rfl

theorem parseLine_eq_iff : parseLine text line = result ↔ Says (Text.trim text) line result :=
  ⟨fun h => h ▸ says_parseLine text line, Says.eq_parseLine⟩

/-! ### All lines -/

theorem isMalformed_eq_false_iff :
    isMalformed text = false ↔ ∃ directive, parseLine text 0 = .ok directive := by
  refine ⟨exists_directive, ?_⟩
  rintro ⟨directive, hline⟩
  simp [isMalformed, hline]

theorem directivesFrom_cons {directive : Option Directive}
    (h : parseLine text 0 = .ok directive) (first : Nat) :
    directivesFrom first (text :: lines) =
      (directive.map (atLine first)).toList ++ directivesFrom (first + 1) lines := by
  have hline : parseLine text first = .ok (directive.map (atLine first)) := by
    rw [parseLine_eq, h]
  rw [directivesFrom, directivesFrom, List.zipIdx_cons, List.filterMap_cons]
  cases directive <;> simp [hline, Except.toOption]

theorem parseFrom_of_ok (first : Nat)
    (h : ∀ text ∈ lines, ∃ directive, parseLine text 0 = .ok directive) :
    parseFrom first lines = (directivesFrom first lines, none) := by
  induction lines generalizing first with
  | nil => rfl
  | cons text lines ih =>
      obtain ⟨⟨directive, hline⟩, hrest⟩ := List.forall_mem_cons.mp h
      rw [parseFrom_cons_of_ok hline, ih (first + 1) hrest, directivesFrom_cons hline]

/-- The header that ends a script is judged at its own place. -/
theorem parseLines_of_broken {header : String} {rest : List String} {fault : ScriptFault}
    (h : ∀ text ∈ lines, ∃ directive, parseLine text 0 = .ok directive)
    (hheader : parseLine header (lines.length + 1) = .error fault) :
    parseLines (lines ++ header :: rest) = (directivesFrom 1 lines, some fault) := by
  have hsound : ∀ text ∈ lines, isMalformed text = false := fun text htext =>
    isMalformed_eq_false_iff.mpr (h text htext)
  have hplace : parseLine header ((1 + lines.length : Nat) : Int) = .error fault := by
    rw [← hheader, Nat.add_comm, Int.natCast_add, Int.natCast_one]
  rw [parseLines, Script.parseFrom_append hsound hplace, parseFrom_of_ok 1 h]

theorem saysAll_parseLines (lines : List String) : SaysAll lines (parseLines lines) := by
  have hsound : ∀ text ∈ Script.soundLines lines, ∃ directive,
      parseLine text 0 = .ok directive := fun text htext =>
    exists_directive (by simpa using List.mem_takeWhile_imp htext)
  rcases hrest : lines.dropWhile fun line => !isMalformed line with _ | ⟨header, rest⟩
  · have hall : Script.soundLines lines = lines := by
      rw [Script.soundLines, ← List.append_nil (List.takeWhile _ _), ← hrest,
        List.takeWhile_append_dropWhile]
    rw [hall] at hsound
    rw [parseLines, parseFrom_of_ok 1 hsound]
    exact .sound hsound
  · have hparts : lines = Script.soundLines lines ++ header :: rest := by
      rw [Script.soundLines, ← hrest, List.takeWhile_append_dropWhile]
    have hbad : isMalformed header = true := by
      have hstop := List.head?_dropWhile_not (fun line => !isMalformed line) lines
      rw [hrest] at hstop
      simpa using hstop
    cases hheader : parseLine header ((Script.soundLines lines).length + 1) with
    | ok directive =>
        rw [parseLine_eq] at hheader
        rw [isMalformed] at hbad
        split at hbad
        next fault hfault => simp [hfault] at hheader
        next => cases hbad
    | error fault =>
        rw [hparts, parseLines_of_broken hsound hheader]
        exact .broken hsound hheader

theorem parseLines_eq_iff {said : List Directive × Option ScriptFault} :
    parseLines lines = said ↔ SaysAll lines said := by
  constructor
  · rintro rfl
    exact saysAll_parseLines lines
  · intro h
    cases h with
    | sound h => rw [parseLines, parseFrom_of_ok 1 h]
    | broken h hheader => exact parseLines_of_broken h hheader

/-! ### The grammar -/

/-- Scripts are read as their grammar says: each line by the text between its blanks, the tokens of
a header in any order, number and spelling, and all lines up to the first malformed header. The
tokens of a well-formed header are also names from which its mode can be made. -/
theorem parse_iff_says :
    (∀ text line, Text.Stripped text.toList (Text.trim text).toList ∧
      ∀ result, parseLine text line = result ↔ Says (Text.trim text) line result) ∧
    (∀ (mode : Mode) (tokens : List String),
      Mode.ofNames (tokens.map Mode.nameForm) = .ok mode ↔ mode.SumOf tokens) ∧
    (∀ (r : Representation) (token : String), r.NamedBy token ↔
      ∃ name ∈ r.names, ∃ front written back,
        token.toList = front ++ written ++ back ∧
          (∀ c ∈ front ++ back, Text.isBlank c = true) ∧
          written.map Char.toLower = name.toList) ∧
    ∀ lines said, parseLines lines = said ↔ SaysAll lines said := by
  refine ⟨fun text line => ⟨?_, fun result => parseLine_eq_iff⟩, fun mode tokens => ?_,
    fun r token => Representation.namedBy_iff, fun lines said => parseLines_eq_iff⟩
  · rw [Text.trim, String.toList_ofList]
    exact Text.stripped_trimList text.toList
  · rw [Mode.ofNames_eq_ok_iff, Mode.sumOf_map_nameForm]

end Directive

end ArchiveExport
