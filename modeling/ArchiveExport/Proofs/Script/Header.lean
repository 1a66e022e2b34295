import ArchiveExport.Proofs.Text.Letters
import ArchiveExport.Proofs.Text.Pieces
import ArchiveExport.Script.Directive

/-!
# Mode headers

A header is a list of tokens between brackets, with commas between them. It is well formed if each
token names a representation, and then its mode has the representations that are named, in whatever
order, how often and in which spelling they are.
-/

namespace ArchiveExport

namespace Representation

/-- The names that stand for a representation. -/
def names : Representation → List String
  | .raw => ["raw"]
  | .structured => ["json", "text"]
  | .texture => ["texture"]

theorem ofName?_eq_some_iff {r : Representation} {name : String} :
    ofName? name = some r ↔ name ∈ r.names := by
  constructor
  · unfold ofName?
    split <;> simp +contextual [names, eq_comm]
  · cases r <;> simp +contextual [names, ofName?, or_imp]

theorem ofName?_eq_none_iff {name : String} :
    ofName? name = none ↔ ∀ r : Representation, name ∉ r.names := by
  rw [Option.eq_none_iff_forall_ne_some]
  exact forall_congr' fun r => not_congr ofName?_eq_some_iff

/-- A token names a representation once the blanks around it are gone and it is in lower case. -/
def NamedBy (r : Representation) (token : String) : Prop := Mode.nameForm token ∈ r.names

end Representation

namespace Mode

variable {mode : Mode} {tokens : List String}

/-- Whether a representation is active. -/
def has (mode : Mode) : Representation → Bool
  | .raw => mode.raw
  | .structured => mode.structured
  | .texture => mode.texture

theorem eq_of_has {other : Mode} (h : ∀ r, mode.has r = other.has r) : mode = other := by
  obtain ⟨raw, structured, texture⟩ := mode
  obtain ⟨raw', structured', texture'⟩ := other
  obtain rfl : raw = raw' := h .raw
  obtain rfl : structured = structured' := h .structured
  obtain rfl : texture = texture' := h .texture
  rfl

theorem has_none (r : Representation) : none.has r = false := by
  cases r <;> rfl

theorem has_add (mode : Mode) (r s : Representation) :
    (mode.add r).has s = true ↔ mode.has s = true ∨ r = s := by
  cases r <;> cases s <;> simp [add, has]

/-- The mode with all representations that some names stand for. -/
def addNames (mode : Mode) (names : List String) : Mode :=
  names.foldl (fun mode name => (Representation.ofName? name).elim mode mode.add) mode

theorem has_addNames (mode : Mode) (names : List String) (r : Representation) :
    (mode.addNames names).has r = true ↔ mode.has r = true ∨ ∃ name ∈ names, name ∈ r.names := by
  induction names generalizing mode with
  | nil => simp [addNames]
  | cons name names ih =>
      have hfirst : ((Representation.ofName? name).elim mode mode.add).has r = true ↔
          mode.has r = true ∨ name ∈ r.names := by
        rw [← Representation.ofName?_eq_some_iff]
        cases Representation.ofName? name with
        | none => simp
        | some s => simp [has_add]
      rw [addNames, List.foldl_cons, ← addNames, ih, hfirst, or_assoc, List.exists_mem_cons_iff]

/-- Names are added up to the first one that stands for nothing. -/
theorem foldlM_add_eq {ε : Type} {form : String → String} {fault : String → ε}
    {step : Mode → String → Except ε Mode}
    (hstep : ∀ mode token, step mode token =
      (Representation.ofName? (form token)).elim (.error (fault token)) (.ok ∘ mode.add))
    (start : Mode) (tokens : List String) :
    tokens.foldlM step start =
      match tokens.find? fun token => (Representation.ofName? (form token)).isNone with
      | some token => .error (fault token)
      | Option.none => .ok (start.addNames (tokens.map form)) := by
  induction tokens generalizing start with
  | nil => rfl
  | cons token tokens ih =>
      rw [List.foldlM_cons, List.find?_cons, hstep]
      cases hname : Representation.ofName? (form token) with
      | none => rfl
      | some r =>
          simp only [Option.isNone_some]
          rw [List.map_cons, addNames, List.foldl_cons, hname, ← addNames]
          exact ih (start.add r)

/-- A mode is what tokens add up to: each of them names a representation, and the active ones are
those that are named. -/
structure SumOf (mode : Mode) (tokens : List String) : Prop where
  named : ∀ token ∈ tokens, ∃ r, Representation.NamedBy r token
  has_iff : ∀ r, mode.has r = true ↔ ∃ token ∈ tokens, Representation.NamedBy r token

theorem sumOf_iff :
    mode.SumOf tokens ↔
      (tokens.find? fun token => (Representation.ofName? (nameForm token)).isNone) = Option.none ∧
        none.addNames (tokens.map nameForm) = mode := by
  have hnamed : (∀ token ∈ tokens, ∃ r, Representation.NamedBy r token) ↔
      (tokens.find? fun token => (Representation.ofName? (nameForm token)).isNone) =
        Option.none := by
    rw [List.find?_eq_none]
    refine forall₂_congr fun token _ => ?_
    rw [Option.isNone_iff_eq_none, Representation.ofName?_eq_none_iff, not_forall]
    exact exists_congr fun r => not_not.symm
  have hsum : (∀ r, mode.has r = true ↔ ∃ token ∈ tokens, Representation.NamedBy r token) ↔
      none.addNames (tokens.map nameForm) = mode := by
    have hhas : ∀ r, (none.addNames (tokens.map nameForm)).has r = true ↔
        ∃ token ∈ tokens, Representation.NamedBy r token := by
      intro r
      rw [has_addNames, has_none]
      simp [Representation.NamedBy]
    constructor
    · intro h
      exact eq_of_has fun r => Bool.eq_iff_iff.mpr ((hhas r).trans (h r).symm)
    · rintro rfl
      exact hhas
  rw [← hnamed, ← hsum]
  exact ⟨fun h => ⟨h.named, h.has_iff⟩, fun h => ⟨h.1, h.2⟩⟩

/-- The mode of some tokens is what they add up to. -/
theorem ofNames_eq_ok_iff : ofNames tokens = .ok mode ↔ mode.SumOf tokens := by
  have hfold : ofNames tokens =
      match tokens.find? fun token => (Representation.ofName? (nameForm token)).isNone with
      | some token => .error token
      | Option.none => .ok (none.addNames (tokens.map nameForm)) := by
    refine foldlM_add_eq (fun mode token => ?_) none tokens
    cases Representation.ofName? (nameForm token) <;> rfl
  rw [sumOf_iff, hfold]
  split <;> simp_all

/-- Tokens that are in the form that decides about them stay what they are. -/
theorem nameForm_nameForm (token : String) : nameForm (nameForm token) = nameForm token := by
  rw [nameForm, nameForm, Text.trim_lower_trim, Text.lower_lower]

theorem sumOf_map_nameForm : mode.SumOf (tokens.map nameForm) ↔ mode.SumOf tokens := by
  have hform : ∀ r token, Representation.NamedBy r (nameForm token) ↔
      Representation.NamedBy r token := by
    intro r token
    rw [Representation.NamedBy, nameForm_nameForm, ← Representation.NamedBy]
  have hnamed : (∀ token ∈ tokens.map nameForm, ∃ r, Representation.NamedBy r token) ↔
      ∀ token ∈ tokens, ∃ r, Representation.NamedBy r token := by
    simp only [List.forall_mem_map, hform]
  have hexists : ∀ r, (∃ token ∈ tokens.map nameForm, Representation.NamedBy r token) ↔
      ∃ token ∈ tokens, Representation.NamedBy r token := by
    intro r
    simp only [List.mem_map, exists_exists_and_eq_and, hform]
  constructor
  · intro h
    exact ⟨hnamed.mp h.named, fun r => (h.has_iff r).trans (hexists r)⟩
  · intro h
    exact ⟨hnamed.mpr h.named, fun r => (h.has_iff r).trans (hexists r).symm⟩

end Mode

/-! ### Spellings of a token -/

/-- A token names a representation exactly if it is one of its names, in capital or small letters,
with blanks around it. -/
theorem Representation.namedBy_iff {r : Representation} {token : String} :
    r.NamedBy token ↔ ∃ name ∈ r.names, ∃ front written back,
      token.toList = front ++ written ++ back ∧ (∀ c ∈ front ++ back, Text.isBlank c = true) ∧
        written.map Char.toLower = name.toList := by
  have hplain : ∀ name ∈ r.names, name.toList ≠ [] ∧ ∀ c ∈ name.toList,
      0x61 ≤ c.toNat ∧ c.toNat ≤ 0x7A ∧ c ≠ 'k' := by
    have hall : ∀ name ∈ r.names, name.toList ≠ [] ∧
        name.toList.all fun c => 0x61 ≤ c.toNat ∧ c.toNat ≤ 0x7A ∧ c ≠ 'k' := by
      cases r <;> decide
    intro name hname
    obtain ⟨hne, hletters⟩ := hall name hname
    exact ⟨hne, fun c hc => of_decide_eq_true (List.all_eq_true.mp hletters c hc)⟩
  constructor
  · intro h
    obtain ⟨⟨front, back, htoken, hblank⟩, -, -⟩ := Text.stripped_trimList token.toList
    refine ⟨Mode.nameForm token, h, front, _, back, htoken, hblank, ?_⟩
    have hform : Text.lowerFrom [] (Text.trimList token.toList) =
        (Mode.nameForm token).toList := by
      rw [Mode.nameForm, Text.lower, String.toList_ofList, Text.trim, String.toList_ofList]
    refine Text.map_toLower_of_lowerFrom hform fun c hc => ?_
    obtain ⟨-, hhigh, hk⟩ := (hplain _ h).2 c hc
    exact ⟨by omega, hk⟩
  · rintro ⟨name, hname, front, written, back, htoken, hblank, hwritten⟩
    obtain ⟨hne, hletters⟩ := hplain name hname
    have hascii : ∀ c ∈ written, 0x41 ≤ c.toNat ∧ c.toNat < 0x80 := by
      intro c hc
      have hlower : c.toLower ∈ name.toList := hwritten ▸ List.mem_map_of_mem hc
      obtain ⟨hlow, hhigh, -⟩ := hletters _ hlower
      exact Text.letter_of_toLower hlow hhigh
    have hsolid : ∀ c ∈ written, Text.isBlank c = false := fun c hc =>
      Text.isBlank_eq_false_of_ascii (by have := hascii c hc; omega) (hascii c hc).2
    have htrim : Text.trimList token.toList = written :=
      Text.trimList_of_stripped ⟨⟨front, back, htoken, hblank⟩,
        fun c hc => hsolid c (List.mem_of_mem_head? hc),
        fun c hc => hsolid c (List.mem_of_getLast? hc)⟩
    have hform : Mode.nameForm token = name := by
      rw [Mode.nameForm, Text.lower, Text.trim, String.toList_ofList, htrim,
        Text.lowerFrom_of_ascii fun c hc => (hascii c hc).2, hwritten, String.ofList_toList]
    rw [NamedBy, hform]
    exact hname

/-! ### Brackets and commas -/

namespace Directive

variable {text : String} {tokens : List String} {mode : Mode}

/-- A text consists of tokens between brackets, with commas between them. -/
structure Brackets (text : String) (tokens : List String) : Prop where
  text_eq : text = "[" ++ Text.join "," tokens ++ "]"
  nonempty : tokens ≠ []
  noComma : ∀ token ∈ tokens, ',' ∉ token.toList

/-- Everything between two brackets is divided into tokens. -/
theorem exists_brackets (hopen : text.toList.head? = some '[')
    (hclose : text.toList.getLast? = some ']') : ∃ tokens, Brackets text tokens := by
  obtain ⟨rest, hrest⟩ : ∃ rest, text.toList = '[' :: rest := List.head?_eq_some_iff.mp hopen
  have hlast : rest.getLast? = some ']' := by
    cases rest with
    | nil => simp [hrest] at hclose
    | cons c rest => rwa [hrest, List.getLast?_cons_cons] at hclose
  obtain ⟨body, rfl⟩ := List.getLast?_eq_some_iff.mp hlast
  refine ⟨Text.split ',' (String.ofList body), ?_, Text.split_ne_nil _ _,
    fun token htoken => Text.not_mem_of_mem_split htoken⟩
  rw [Text.join_split rfl, ← String.toList_inj, hrest]
  simp

theorem Brackets.headerNames_eq (h : Brackets text tokens) :
    headerNames (text.toList.drop 1).dropLast = tokens.map Mode.nameForm := by
  have hbody : (text.toList.drop 1).dropLast = (Text.join "," tokens).toList := by
    rw [h.text_eq]
    simp
  have hsplit : Text.split ',' (Text.join "," tokens) = tokens :=
    Text.split_join rfl h.nonempty h.noComma
  rw [headerNames, hbody]
  conv_rhs => rw [← hsplit, Text.split, List.map_map]
  rfl

theorem Brackets.getLast?_eq (h : Brackets text tokens) : text.toList.getLast? = some ']' := by
  rw [h.text_eq, String.toList_append]
  exact List.getLast?_concat

theorem Brackets.head?_eq (h : Brackets text tokens) : text.toList.head? = some '[' := by
  rw [h.text_eq]
  simp

/-- What is wrong with a token that names nothing. -/
def tokenFault (token : String) : HeaderFault :=
  if Mode.nameForm token = "" then .emptyName else .unknownName (Mode.nameForm token)

/-- A header is judged by its first token that names nothing. -/
theorem Brackets.parseHeader_eq (h : Brackets text tokens) :
    parseHeader text =
      match tokens.find? fun token =>
        (Representation.ofName? (Mode.nameForm token)).isNone with
      | some token => .error (tokenFault token)
      | none => .ok (Mode.none.addNames (tokens.map Mode.nameForm)) := by
  rw [parseHeader, if_pos h.getLast?_eq, h.headerNames_eq, modeOfNames, List.foldlM_map]
  refine Mode.foldlM_add_eq (fun mode token => ?_) Mode.none tokens
  have hempty : Representation.ofName? "" = none := rfl
  by_cases hform : Mode.nameForm token = ""
  · rw [if_pos hform, hform, hempty, tokenFault, if_pos hform]
    rfl
  · rw [if_neg hform, tokenFault, if_neg hform]
    cases Representation.ofName? (Mode.nameForm token) <;> rfl

theorem parseHeader_eq_ok_iff (hopen : text.toList.head? = some '[') :
    parseHeader text = .ok mode ↔ ∃ tokens, Brackets text tokens ∧ mode.SumOf tokens := by
  constructor
  · intro h
    by_cases hclose : text.toList.getLast? = some ']'
    · obtain ⟨tokens, htokens⟩ := exists_brackets hopen hclose
      refine ⟨tokens, htokens, Mode.sumOf_iff.mpr ?_⟩
      rw [htokens.parseHeader_eq] at h
      split at h
      next => cases h
      next hnone => exact ⟨hnone, Except.ok.inj h⟩
    · rw [parseHeader, if_neg hclose] at h
      cases h
  · rintro ⟨tokens, htokens, hsum⟩
    obtain ⟨hnone, rfl⟩ := Mode.sumOf_iff.mp hsum
    rw [htokens.parseHeader_eq, hnone]

/-- A header is not closed, or one of its tokens is the first that names nothing. -/
inductive Malformed (text : String) : HeaderFault → Prop
  | unclosed (h : text.toList.getLast? ≠ some ']') : Malformed text .unclosed
  | misnamed {front : List String} {token : String} {behind : List String}
      (htokens : Brackets text (front ++ token :: behind))
      (hfront : ∀ other ∈ front, ∃ r, Representation.NamedBy r other)
      (htoken : ∀ r, ¬ Representation.NamedBy r token) : Malformed text (tokenFault token)

theorem parseHeader_eq_error_iff (hopen : text.toList.head? = some '[') {fault : HeaderFault} :
    parseHeader text = .error fault ↔ Malformed text fault := by
  have hnamed : ∀ token, (Representation.ofName? (Mode.nameForm token)).isNone = true ↔
      ∀ r, ¬ Representation.NamedBy r token := fun token => by
    rw [Option.isNone_iff_eq_none, Representation.ofName?_eq_none_iff]
    rfl
  have hfind : ∀ {tokens token}, (tokens.find? fun token =>
      (Representation.ofName? (Mode.nameForm token)).isNone) = some token ↔
        (∀ r, ¬ Representation.NamedBy r token) ∧ ∃ front behind,
          tokens = front ++ token :: behind ∧
            ∀ other ∈ front, ∃ r, Representation.NamedBy r other := by
    intro tokens token
    rw [List.find?_eq_some_iff_append, hnamed]
    simp only [Bool.not_eq_true', ← Bool.not_eq_true, hnamed, not_forall, not_not]
  constructor
  · intro h
    by_cases hclose : text.toList.getLast? = some ']'
    · obtain ⟨tokens, htokens⟩ := exists_brackets hopen hclose
      rw [htokens.parseHeader_eq] at h
      split at h
      next token hfound =>
        obtain ⟨htoken, front, behind, rfl, hfront⟩ := hfind.mp hfound
        rw [← Except.error.inj h]
        exact .misnamed htokens hfront htoken
      next => cases h
    · rw [parseHeader, if_neg hclose] at h
      rw [← Except.error.inj h]
      exact .unclosed hclose
  · intro h
    cases h with
    | unclosed hclose => rw [parseHeader, if_neg hclose]
    | misnamed htokens hfront htoken =>
        rw [htokens.parseHeader_eq, hfind.mpr ⟨htoken, _, _, rfl, hfront⟩]

end Directive

end ArchiveExport
