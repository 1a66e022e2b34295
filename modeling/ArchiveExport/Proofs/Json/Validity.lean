import ArchiveExport.Proofs.Json.Layout
import ArchiveExport.Proofs.Json.Numeral
import ArchiveExport.Proofs.Json.Text

/-!
# Which trees are written as JSON texts

The names that are written for numbers that are not finite are no part of the grammar: outside of
texts in quotes, no JSON text has the letters N and I. A tree is written as a JSON text exactly when
all its real numbers are finite.
-/

namespace ArchiveExport

/-- Whether a number is finite. -/
def Binary64.isFinite : Binary64 → Bool
  | .finite .. => true
  | _ => false

namespace Json

variable {layout : Layout} {cs ds gap body rest : List Char} {pieces : List (List Char)} {c : Char}
  {j : Json}

mutual

/-- Whether all real numbers of a tree are finite. -/
def isFinite : Json → Bool
  | .real x => x.isFinite
  | .array xs => itemsFinite xs
  | .object ms => membersFinite ms
  | _ => true

/-- Whether all real numbers of the items of an array are finite. -/
def itemsFinite : List Json → Bool
  | [] => true
  | x :: xs => x.isFinite && itemsFinite xs

/-- Whether all real numbers of the members of an object are finite. -/
def membersFinite : List (String × Json) → Bool
  | [] => true
  | (_, x) :: ms => x.isFinite && membersFinite ms

end

theorem isFinite_array_iff (xs : List Json) :
    (array xs).isFinite = true ↔ ∀ x ∈ xs, x.isFinite = true := by
  rw [isFinite]
  induction xs with
  | nil => simp [itemsFinite]
  | cons x xs ih => rw [itemsFinite, Bool.and_eq_true, ih, List.forall_mem_cons]

theorem isFinite_object_iff (ms : List (String × Json)) :
    (object ms).isFinite = true ↔ ∀ m ∈ ms, m.2.isFinite = true := by
  rw [isFinite]
  induction ms with
  | nil => simp [membersFinite]
  | cons m ms ih => rw [membersFinite, Bool.and_eq_true, ih, List.forall_mem_cons]

/-! ### Trees of finite numbers -/

/-- A member of an object as it is written. -/
def writtenMember (layout : Layout) (depth : Nat) (m : String × Json) : MemberText where
  name := writeText layout m.1
  before := []
  after := [' ']
  value := write layout depth m.2

/-- A tree of finite numbers is written as a value of the grammar. -/
theorem isValue_write (layout : Layout) (h : Legible j)
    (hfinite : j.isFinite = true) (depth : Nat) : IsValue (write layout depth j) := by
  induction h generalizing depth with
  | null => exact .null
  | bool b =>
      cases b
      · exact .false
      · exact .true
  | @integer n h =>
      have hnumeral := (Numeral.isFormed_ofNat n.natAbs).isNumeral (decide (n < 0))
      rw [write, Numeral.writeInteger_eq]
      exact .numeral hnumeral
  | @real x h =>
      cases x with
      | nan => cases hfinite
      | infinity negative => cases hfinite
      | finite negative s e =>
          obtain ⟨m, hformed, -, htext, -⟩ := Numeral.exists_finiteText_eq h
          change IsValue (Binary64.finiteText negative s e)
          rw [htext]
          exact .numeral (hformed.isNumeral negative)
  | text h => exact .text (isText_writeText layout _)
  | @array xs h ih =>
      obtain ⟨cs, hcs, hwrite⟩ := exists_write_array layout depth xs
      rw [hwrite]
      refine .array (fun i hi => ?_) hcs
      obtain ⟨x, hx, rfl⟩ := List.mem_map.mp hi
      exact ih x hx ((isFinite_array_iff xs).mp hfinite x hx) (depth + 1)
  | @object ms hnames hunpaired h ih =>
      obtain ⟨cs, hcs, hwrite⟩ := exists_write_object layout depth ms
      have hnamed : ∀ t ∈ (sortMembers ms).map (writtenMember layout (depth + 1)), t.IsNamed := by
        intro t ht
        obtain ⟨m, -, rfl⟩ := List.mem_map.mp ht
        exact ⟨isText_writeText layout m.1, isGap_nil, isGap_singleton rfl⟩
      have hvalues : ∀ t ∈ (sortMembers ms).map (writtenMember layout (depth + 1)),
          IsValue t.value := by
        intro t ht
        obtain ⟨m, hm, rfl⟩ := List.mem_map.mp ht
        have hmem := mem_sortMembers.mp hm
        exact ih m hmem ((isFinite_object_iff ms).mp hfinite m hmem) (depth + 1)
      rw [hwrite]
      refine .object hnamed hvalues ?_
      rw [List.map_map]
      exact hcs

/-! ### Letters outside of texts -/

/-- Where a character stands: outside of a text, inside of one, or behind a backslash in one. -/
inductive Place where
  | plain
  | quoted
  | escaped

/-- How many letters N and I stand outside of texts, from a place on. -/
def strays : Place → List Char → Nat
  | _, [] => 0
  | .plain, c :: cs =>
    if c = '"' then strays .quoted cs
    else (if c = 'N' ∨ c = 'I' then 1 else 0) + strays .plain cs
  | .quoted, c :: cs =>
    strays (if c = '"' then .plain else if c = '\\' then .escaped else .quoted) cs
  | .escaped, _ :: cs => strays .quoted cs

/-- What follows is counted as if it stood alone. -/
def Closed (cs : List Char) : Prop :=
  ∀ rest, strays .plain (cs ++ rest) = strays .plain cs + strays .plain rest

/-- There is no such letter, and what follows is counted as if it stood alone. -/
def Inert (cs : List Char) : Prop :=
  ∀ rest, strays .plain (cs ++ rest) = strays .plain rest

theorem Inert.strays_eq (h : Inert cs) : strays .plain cs = 0 := by
  have hnil := h []
  rwa [List.append_nil] at hnil

theorem Inert.closed (h : Inert cs) : Closed cs := by
  intro rest
  rw [h rest, h.strays_eq, Nat.zero_add]

theorem Inert.append (h : Inert cs) (h' : Inert ds) : Inert (cs ++ ds) := by
  intro rest
  rw [List.append_assoc, h, h']

theorem inert_cons (hquote : c ≠ '"') (hN : c ≠ 'N') (hI : c ≠ 'I') (h : Inert cs) :
    Inert (c :: cs) := by
  intro rest
  rw [List.cons_append, strays, if_neg hquote, if_neg (not_or.mpr ⟨hN, hI⟩), h, Nat.zero_add]

theorem inert_nil : Inert [] :=
  fun _ => rfl

theorem inert_of_forall (h : ∀ c ∈ cs, c ≠ '"' ∧ c ≠ 'N' ∧ c ≠ 'I') : Inert cs := by
  induction cs with
  | nil => exact inert_nil
  | cons c cs ih =>
      obtain ⟨hquote, hN, hI⟩ := h c List.mem_cons_self
      exact inert_cons hquote hN hI (ih fun d hd => h d (List.mem_cons_of_mem c hd))

theorem inert_of_all (h : (cs.all fun c => c != '"' && c != 'N' && c != 'I') = true) :
    Inert cs := by
  refine inert_of_forall fun c hc => ?_
  simpa [and_assoc] using List.all_eq_true.mp h c hc

theorem inert_gap (h : IsGap gap) : Inert gap := by
  refine inert_of_forall fun c hc => ?_
  have hspace := h c hc
  refine ⟨?_, ?_, ?_⟩ <;> (rintro rfl; exact absurd hspace (by decide))

theorem inert_digits (h : ∀ c ∈ cs, isDigit c = true) : Inert cs := by
  refine inert_of_forall fun c hc => ?_
  have hdigit := h c hc
  refine ⟨?_, ?_, ?_⟩ <;> (rintro rfl; exact absurd hdigit (by decide))

theorem IsFraction.inert (h : IsFraction cs) : Inert cs := by
  cases h with
  | none => exact inert_nil
  | digits h => exact inert_cons (by decide) (by decide) (by decide) (inert_digits h.2)

theorem inert_sign (h : cs = [] ∨ cs = ['+'] ∨ cs = ['-']) : Inert cs := by
  rcases h with rfl | rfl | rfl
  · exact inert_nil
  · exact inert_cons (by decide) (by decide) (by decide) inert_nil
  · exact inert_cons (by decide) (by decide) (by decide) inert_nil

theorem IsExponent.inert (h : IsExponent cs) : Inert cs := by
  cases h with
  | none => exact inert_nil
  | digits hletter hsign h =>
      have hrest := (inert_sign hsign).append (inert_digits h.2)
      rcases hletter with rfl | rfl
      · exact inert_cons (by decide) (by decide) (by decide) hrest
      · exact inert_cons (by decide) (by decide) (by decide) hrest

theorem IsNumeral.inert (h : IsNumeral cs) : Inert cs := by
  cases h with
  | parts hsign hwhole hfraction hexponent =>
      have hminus := inert_sign (hsign.imp_right Or.inr)
      have hdigits := inert_digits hwhole.1.2
      exact hminus.append (hdigits.append (hfraction.inert.append hexponent.inert))

/-! ### Texts in quotes -/

theorem strays_quoted_cons (hquote : c ≠ '"') (hslash : c ≠ '\\') :
    strays .quoted (c :: rest) = strays .quoted rest := by
  rw [strays, if_neg hquote, if_neg hslash]

theorem strays_hexDigit (h : (hexValue? c).isSome = true) :
    strays .quoted (c :: rest) = strays .quoted rest := by
  have hquote : c ≠ '"' := by
    rintro rfl
    exact absurd h (by decide)
  have hslash : c ≠ '\\' := by
    rintro rfl
    exact absurd h (by decide)
  exact strays_quoted_cons hquote hslash

/-- A text is left at its closing quote. -/
theorem IsTextBody.strays_eq (h : IsTextBody body) (rest : List Char) :
    strays .quoted (body ++ '"' :: rest) = strays .plain rest := by
  induction h with
  | nil => rfl
  | plain hcontrol hquote hslash h ih =>
      rw [List.cons_append, strays_quoted_cons hquote hslash, ih]
  | short hc h ih => exact ih
  | @unit a b c d cs hdigits h ih =>
      have hskip : strays .quoted ('\\' :: 'u' :: a :: b :: c :: d :: cs ++ '"' :: rest) =
          strays .quoted (a :: b :: c :: d :: (cs ++ '"' :: rest)) := rfl
      rw [hskip, strays_hexDigit (hdigits a (by simp)), strays_hexDigit (hdigits b (by simp)),
        strays_hexDigit (hdigits c (by simp)), strays_hexDigit (hdigits d (by simp)), ih]

theorem IsText.inert (h : IsText cs) : Inert cs := by
  intro rest
  cases h with
  | @quoted body h =>
      have hopen : strays .plain ('"' :: (body ++ ['"']) ++ rest) =
          strays .quoted (body ++ ['"'] ++ rest) := rfl
      rw [hopen, List.append_assoc, List.singleton_append, h.strays_eq]

/-! ### Pieces between brackets -/

/-- The letters outside of texts are those of the pieces. -/
theorem Joined.strays_append (h : Joined pieces cs) (hpieces : ∀ p ∈ pieces, Closed p)
    (rest : List Char) : strays .plain (cs ++ rest) =
      (pieces.map (strays .plain)).sum + strays .plain rest := by
  induction h with
  | nil hgap => rw [inert_gap hgap, List.map_nil, List.sum_nil, Nat.zero_add]
  | last hbefore hafter =>
      rw [List.append_assoc, List.append_assoc, inert_gap hbefore,
        hpieces _ List.mem_cons_self, inert_gap hafter]
      simp
  | @cons before piece after cs pieces hbefore hafter hne h ih =>
      have hcomma : Inert [','] := inert_cons (by decide) (by decide) (by decide) inert_nil
      have hrest := ih fun p hp => hpieces p (List.mem_cons_of_mem piece hp)
      rw [List.append_assoc, List.append_assoc, List.append_assoc, inert_gap hbefore,
        hpieces piece List.mem_cons_self, inert_gap hafter, List.cons_append,
        ← List.singleton_append, hcomma, hrest, List.map_cons, List.sum_cons, Nat.add_assoc]

/-- Between brackets stand the letters of the pieces. -/
theorem Joined.strays_brackets {first last : Char} (h : Joined pieces cs)
    (hpieces : ∀ p ∈ pieces, Closed p) (hfirst : Inert [first]) (hlast : Inert [last]) :
    strays .plain (first :: (cs ++ [last])) = (pieces.map (strays .plain)).sum ∧
      Closed (first :: (cs ++ [last])) := by
  have hall (rest : List Char) : strays .plain (first :: (cs ++ [last]) ++ rest) =
      (pieces.map (strays .plain)).sum + strays .plain rest := by
    rw [List.cons_append, ← List.singleton_append, hfirst, List.append_assoc,
      h.strays_append hpieces, hlast]
  have hsum : strays .plain (first :: (cs ++ [last])) = (pieces.map (strays .plain)).sum := by
    have hnil := hall []
    rwa [List.append_nil] at hnil
  exact ⟨hsum, fun rest => by rw [hall, hsum]⟩

theorem inert_brackets :
    Inert ['['] ∧ Inert [']'] ∧ Inert ['\x7b'] ∧ Inert ['\x7d'] :=
  ⟨inert_of_all rfl, inert_of_all rfl, inert_of_all rfl, inert_of_all rfl⟩

theorem inert_of_joined {first last : Char} (h : Joined pieces cs)
    (hpieces : ∀ p ∈ pieces, Inert p) (hfirst : Inert [first]) (hlast : Inert [last]) :
    Inert (first :: (cs ++ [last])) := by
  obtain ⟨hsum, hclosed⟩ :=
    h.strays_brackets (fun p hp => (hpieces p hp).closed) hfirst hlast
  have hzero : (pieces.map (strays .plain)).sum = 0 := by
    rw [List.sum_eq_zero_iff_forall_eq_nat]
    intro n hn
    obtain ⟨p, hp, rfl⟩ := List.mem_map.mp hn
    exact (hpieces p hp).strays_eq
  intro rest
  rw [hclosed, hsum, hzero, Nat.zero_add]

/-- No JSON value has one of the letters outside of texts. -/
theorem IsValue.inert (h : IsValue cs) : Inert cs := by
  obtain ⟨hopen, hclose, hopen', hclose'⟩ := inert_brackets
  induction h with
  | null => exact inert_of_all rfl
  | true => exact inert_of_all rfl
  | false => exact inert_of_all rfl
  | numeral h => exact h.inert
  | text h => exact h.inert
  | array hitems hcs ih => exact inert_of_joined hcs ih hopen hclose
  | object hnames hvalues hcs ih =>
      refine inert_of_joined hcs (fun p hp => ?_) hopen' hclose'
      obtain ⟨m, hm, rfl⟩ := List.mem_map.mp hp
      obtain ⟨hname, hbefore, hafter⟩ := hnames m hm
      have hvalue := inert_cons (c := ':') (by decide) (by decide) (by decide)
        ((inert_gap hafter).append (ih m hm))
      exact hname.inert.append ((inert_gap hbefore).append hvalue)

theorem IsDocument.inert (h : IsDocument cs) : Inert cs := by
  cases h with
  | value hbefore h hafter =>
      exact (inert_gap hbefore).append (h.inert.append (inert_gap hafter))

/-! ### The letters of what is written -/

theorem closed_of_not_mem (h : '"' ∉ cs) : Closed cs := by
  intro rest
  induction cs with
  | nil => exact (Nat.zero_add _).symm
  | cons c cs ih =>
      rw [List.mem_cons, not_or] at h
      have hquote : c ≠ '"' := Ne.symm h.1
      rw [List.cons_append, strays, strays, if_neg hquote, if_neg hquote, ih h.2, Nat.add_assoc]

/-- The letters of a member are those of its value. -/
theorem strays_writeMember (layout : Layout) (name : String) (h : Closed cs) :
    strays .plain (writeMember layout name cs) = strays .plain cs ∧
      Closed (writeMember layout name cs) := by
  have hname : Inert (writeText layout name ++ [':', ' ']) :=
    (isText_writeText layout name).inert.append (inert_of_all rfl)
  have hsplit : writeMember layout name cs = writeText layout name ++ [':', ' '] ++ cs := by
    rw [writeMember, List.append_assoc]
    rfl
  rw [hsplit, hname]
  refine ⟨rfl, fun rest => ?_⟩
  rw [List.append_assoc, hname, hname, h]

/-- The text of a tree has one of the letters outside of texts unless all its numbers are finite. -/
theorem strays_write (layout : Layout) (h : Legible j) (depth : Nat) :
    (strays .plain (write layout depth j) = 0 ↔ j.isFinite = true) ∧
      Closed (write layout depth j) := by
  obtain ⟨hopen, hclose, hopen', hclose'⟩ := inert_brackets
  have hinert {cs : List Char} {j : Json} (hcs : Inert cs) (hj : j.isFinite = true) :
      (strays .plain cs = 0 ↔ j.isFinite = true) ∧ Closed cs :=
    ⟨iff_of_true hcs.strays_eq hj, hcs.closed⟩
  have hname (cs : List Char) {x : Binary64} (hcs : '"' ∉ cs ∧ strays .plain cs ≠ 0)
      (hx : x.isFinite = false) :
      (strays .plain cs = 0 ↔ (real x).isFinite = true) ∧ Closed cs :=
    ⟨iff_of_false hcs.2 (by rw [isFinite, hx]; decide), closed_of_not_mem hcs.1⟩
  induction h generalizing depth with
  | null => exact hinert (isValue_write layout .null rfl depth).inert rfl
  | bool b => exact hinert (isValue_write layout (.bool b) rfl depth).inert rfl
  | integer h => exact hinert (isValue_write layout (.integer h) rfl depth).inert rfl
  | text h => exact hinert (isValue_write layout (.text h) rfl depth).inert rfl
  | @real x h =>
      match x with
      | .finite negative s e => exact hinert (isValue_write layout (.real h) rfl depth).inert rfl
      | .nan => exact hname "NaN".toList (by decide) rfl
      | .infinity false => exact hname "Infinity".toList (by decide) rfl
      | .infinity true => exact hname "-Infinity".toList (by decide) rfl
  | @array xs h ih =>
      obtain ⟨cs, hcs, hwrite⟩ := exists_write_array layout depth xs
      have hpieces : ∀ p ∈ xs.map (write layout (depth + 1)), Closed p := by
        intro p hp
        obtain ⟨x, hx, rfl⟩ := List.mem_map.mp hp
        exact (ih x hx (depth + 1)).2
      obtain ⟨hsum, hclosed⟩ := hcs.strays_brackets hpieces hopen hclose
      rw [hwrite, hsum, isFinite_array_iff, List.sum_eq_zero_iff_forall_eq_nat]
      simp only [List.forall_mem_map]
      exact ⟨forall₂_congr fun x hx => (ih x hx (depth + 1)).1, hclosed⟩
  | @object ms hnames hunpaired h ih =>
      obtain ⟨cs, hcs, hwrite⟩ := exists_write_object layout depth ms
      have hmember (m : String × Json) (hm : m ∈ ms) :
          (strays .plain (writeMember layout m.1 (write layout (depth + 1) m.2)) = 0 ↔
            m.2.isFinite = true) ∧
          Closed (writeMember layout m.1 (write layout (depth + 1) m.2)) := by
        obtain ⟨hzero, hclosed⟩ := ih m hm (depth + 1)
        obtain ⟨hletters, hmember⟩ := strays_writeMember layout m.1 hclosed
        rw [hletters]
        exact ⟨hzero, hmember⟩
      have hpieces : ∀ p ∈ (sortMembers ms).map fun m =>
          writeMember layout m.1 (write layout (depth + 1) m.2), Closed p := by
        intro p hp
        obtain ⟨m, hm, rfl⟩ := List.mem_map.mp hp
        exact (hmember m (mem_sortMembers.mp hm)).2
      obtain ⟨hsum, hclosed⟩ := hcs.strays_brackets hpieces hopen' hclose'
      rw [hwrite, hsum, isFinite_object_iff, List.sum_eq_zero_iff_forall_eq_nat]
      simp only [List.forall_mem_map, mem_sortMembers]
      exact ⟨forall₂_congr fun m hm => (hmember m hm).1, hclosed⟩

/-- A tree is written as a JSON text exactly when all its real numbers are finite. -/
theorem isDocument_write_iff (layout : Layout) (h : Legible j)
    (hgap : IsGap gap) : IsDocument (write layout 0 j ++ gap) ↔ j.isFinite = true := by
  obtain ⟨hzero, hclosed⟩ := strays_write layout h 0
  constructor
  · intro hdocument
    have hsum := hclosed gap
    rw [hdocument.inert.strays_eq] at hsum
    exact hzero.mp (by omega)
  · intro hfinite
    exact .value isGap_nil (isValue_write layout h hfinite 0) hgap

end Json

end ArchiveExport
