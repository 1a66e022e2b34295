import ArchiveExport.Proofs.Data.OrderedMap
import ArchiveExport.Proofs.Json.Layout
import ArchiveExport.Proofs.Json.Numeral
import ArchiveExport.Proofs.Json.Text
import ArchiveExport.Proofs.Text.Pieces

/-!
# Reading back what was written

The text of a value is read as that value, whatever follows it. Each token is read back; arrays and
objects are read piece by piece. From this, by induction on the tree, the text of a tree is read as
the tree with its members in the order of their names, if there is room for its brackets. It has no
end of a line but line feeds.
-/

namespace ArchiveExport.Json

open Text (Spelled)

variable {τ : Type} {layout : Layout}
  {cs gap rest more tail start : List Char} {c : Char} {fuel room : Nat} {j : Json τ} {name : τ}

/-! ### Blanks and what ends a numeral -/

theorem skipSpace_append (h : IsGap gap) (cs : List Char) : skipSpace (gap ++ cs) = skipSpace cs :=
  List.dropWhile_append_of_pos h

theorem skipSpace_cons (h : isSpace c = false) : skipSpace (c :: cs) = c :: cs :=
  List.dropWhile_cons_of_neg (by simp [h])

theorem skipSpace_gap (hgap : IsGap gap) (hc : isSpace c = false) :
    skipSpace (gap ++ c :: rest) = c :: rest := by
  rw [skipSpace_append hgap, skipSpace_cons hc]

/-- The characters that stand behind a value and the blanks after it. -/
def Closes (c : Char) : Prop :=
  c = ',' ∨ c = ']' ∨ c = '\x7d'

theorem endsNumeral_cons (h : isSpace c = true ∨ Closes c) : EndsNumeral (c :: rest) := by
  intro d hd
  rw [List.head?_cons, Option.some.injEq] at hd
  subst hd
  rcases h with hspace | rfl | rfl | rfl
  · simp only [isSpace, Bool.or_eq_true, decide_eq_true_eq] at hspace
    rcases hspace with ((rfl | rfl) | rfl) | rfl <;> decide
  · decide
  · decide
  · decide

theorem endsNumeral_gap (hgap : IsGap gap) (hc : Closes c) : EndsNumeral (gap ++ c :: rest) := by
  cases gap with
  | nil => exact endsNumeral_cons (Or.inr hc)
  | cons d gap => exact endsNumeral_cons (Or.inl (hgap d List.mem_cons_self))

/-! ### Lines -/

section Lines

variable [Spelled τ] [LE τ] [DecidableLE τ]

/-- There is no control character but the line feed. -/
def Printed (cs : List Char) : Prop :=
  ∀ c ∈ cs, 0x20 ≤ c.toNat ∨ c = '\n'

theorem printed_of_all (h : (cs.all fun c => decide (0x20 ≤ c.toNat)) = true) : Printed cs :=
  fun c hc => Or.inl (of_decide_eq_true (List.all_eq_true.mp h c hc))

theorem Printed.append (h : Printed cs) (h' : Printed more) : Printed (cs ++ more) :=
  List.forall_mem_append.mpr ⟨h, h'⟩

theorem Printed.cons (h : Printed cs) (hc : 0x20 ≤ c.toNat) : Printed (c :: cs) :=
  List.forall_mem_cons.mpr ⟨Or.inl hc, h⟩

theorem printed_nil : Printed [] :=
  List.forall_mem_nil _

theorem IsDigits.printed (h : IsDigits cs) : Printed cs := by
  intro c hc
  have hdigit := h.2 c hc
  simp only [isDigit, Bool.and_eq_true, decide_eq_true_eq] at hdigit
  omega

theorem IsFraction.printed (h : IsFraction cs) : Printed cs := by
  cases h with
  | none => exact printed_nil
  | digits h => exact h.printed.cons (by decide)

theorem printed_sign (h : cs = [] ∨ cs = ['+'] ∨ cs = ['-']) : Printed cs := by
  rcases h with rfl | rfl | rfl
  · exact printed_nil
  · exact printed_of_all rfl
  · exact printed_of_all rfl

theorem IsExponent.printed (h : IsExponent cs) : Printed cs := by
  cases h with
  | none => exact printed_nil
  | digits hletter hsign h =>
      refine ((printed_sign hsign).append h.printed).cons ?_
      rcases hletter with rfl | rfl <;> decide

theorem IsNumeral.printed (h : IsNumeral cs) : Printed cs := by
  cases h with
  | parts hsign hwhole hfraction hexponent =>
      exact (printed_sign (hsign.imp_right Or.inr)).append
        (hwhole.1.printed.append (hfraction.printed.append hexponent.printed))

theorem IsTextBody.printed (h : IsTextBody cs) : Printed cs := by
  have hescape {c : Char} (hc : c ∈ ['"', '\\', '/', 'b', 'f', 'n', 'r', 't']) :
      0x20 ≤ c.toNat := by
    simp only [List.mem_cons, List.not_mem_nil, or_false] at hc
    rcases hc with rfl | rfl | rfl | rfl | rfl | rfl | rfl | rfl <;> decide
  have hdigit {x : Char} (hx : (hexValue? x).isSome = true) : 0x20 ≤ x.toNat := by
    unfold hexValue? at hx
    grind
  induction h with
  | nil => exact printed_nil
  | plain hcontrol hquote hslash h ih => exact ih.cons hcontrol
  | short hc h ih => exact (ih.cons (hescape hc)).cons (by decide)
  | @unit a b c d cs hdigits h ih =>
      have hunit : Printed (a :: b :: c :: d :: cs) :=
        (((ih.cons (hdigit (hdigits d (by simp)))).cons (hdigit (hdigits c (by simp)))).cons
          (hdigit (hdigits b (by simp)))).cons (hdigit (hdigits a (by simp)))
      exact (hunit.cons (by decide)).cons (by decide)

theorem IsText.printed (h : IsText cs) : Printed cs := by
  cases h with
  | quoted h => exact (h.printed.append (printed_of_all rfl)).cons (by decide)

theorem printed_writeReal {x : Binary64} (h : x.Canonical) : Printed (writeReal x) := by
  match x with
  | .nan => exact printed_of_all rfl
  | .infinity false => exact printed_of_all rfl
  | .infinity true => exact printed_of_all rfl
  | .finite negative s e =>
    obtain ⟨m, hformed, -, htext, -⟩ := Numeral.exists_finiteText_eq h
    change Printed (Binary64.finiteText negative s e)
    rw [htext]
    exact (hformed.isNumeral negative).printed

theorem printed_newline (layout : Layout) (depth : Nat) : Printed (layout.newline depth) := by
  unfold Layout.newline
  intro c hc
  split at hc
  next => exact absurd hc List.not_mem_nil
  next =>
    rcases List.mem_cons.mp hc with rfl | hblank
    · exact Or.inr rfl
    · rw [List.eq_of_mem_replicate hblank]
      exact Or.inl (by decide)

theorem printed_separator (layout : Layout) (depth : Nat) : Printed (layout.separator depth) := by
  unfold Layout.separator
  split
  · exact printed_of_all rfl
  · exact (printed_newline layout depth).cons (by decide)

theorem printed_intersperse {sep : List Char} {pieces : List (List Char)} (hsep : Printed sep)
    (h : ∀ p ∈ pieces, Printed p) : Printed (List.intersperse sep pieces).flatten := by
  induction pieces with
  | nil => exact printed_nil
  | cons piece pieces ih =>
      obtain ⟨hpiece, hpieces⟩ := List.forall_mem_cons.mp h
      cases pieces with
      | nil =>
          rw [List.intersperse_singleton, List.flatten_singleton]
          exact hpiece
      | cons next pieces =>
          rw [List.intersperse_cons_cons, List.flatten_cons, List.flatten_cons]
          exact hpiece.append (hsep.append (ih hpieces))

/-- Brackets add line feeds and blanks. -/
theorem printed_enclose {pieces : List (List Char)} {first last : Char} (layout : Layout)
    (depth : Nat) (hfirst : 0x20 ≤ first.toNat) (hlast : 0x20 ≤ last.toNat)
    (h : ∀ p ∈ pieces, Printed p) : Printed (layout.enclose depth first last pieces) := by
  have hclosing : Printed [last] := printed_nil.cons hlast
  unfold Layout.enclose
  split
  · exact hclosing.cons hfirst
  · have hinner := printed_intersperse (printed_separator layout (depth + 1)) h
    exact ((((printed_newline layout (depth + 1)).cons hfirst).append hinner).append
      (printed_newline layout depth)).append hclosing

/-- The text of a tree has no control characters but the line feeds between its pieces. -/
theorem printed_write (layout : Layout) (h : Legible j) (depth : Nat) :
    Printed (write layout depth j) := by
  induction h generalizing depth with
  | null => exact printed_of_all rfl
  | bool b => cases b <;> exact printed_of_all rfl
  | @integer n h =>
      rw [write, Numeral.writeInteger_eq]
      exact ((Numeral.isFormed_ofNat n.natAbs).isNumeral (decide (n < 0))).printed
  | real h => exact printed_writeReal h
  | text h => exact (isText_writeText layout _).printed
  | @array xs h ih =>
      rw [write_array]
      refine printed_enclose layout depth (by decide) (by decide) fun p hp => ?_
      obtain ⟨x, hx, rfl⟩ := List.mem_map.mp hp
      exact ih x hx (depth + 1)
  | @object ms hnames hunpaired h ih =>
      rw [write_object]
      refine printed_enclose layout depth (by decide) (by decide) fun p hp => ?_
      obtain ⟨m, hm, rfl⟩ := List.mem_map.mp hp
      have hvalue := ih m (mem_sortMembers.mp hm) (depth + 1)
      have hname := (isText_writeText layout m.1).printed
      exact hname.append ((hvalue.cons (by decide)).cons (by decide))

/-- No piece is longer than all of them together. -/
theorem Joined.length_le {pieces : List (List Char)} {piece : List Char} (h : Joined pieces cs)
    (hpiece : piece ∈ pieces) : piece.length ≤ cs.length := by
  induction h with
  | nil => cases hpiece
  | last =>
      rw [List.mem_singleton.mp hpiece]
      simp only [List.length_append]
      omega
  | cons hbefore hafter hne h ih =>
      simp only [List.length_append, List.length_cons]
      rcases List.mem_cons.mp hpiece with rfl | hpiece
      · omega
      · have hrest := ih hpiece
        omega

/-- Brackets take up room in the text, so there are not more of them than characters. -/
theorem height_le_length_write (layout : Layout) (h : Legible j) (depth : Nat) :
    j.height ≤ (write layout depth j).length := by
  induction h generalizing depth with
  | @array xs h ih =>
      obtain ⟨cs, hcs, hwrite⟩ := exists_write_array layout depth xs
      refine height_array_le_iff.mpr ⟨cs.length + 1, by simp [hwrite], fun x hx => ?_⟩
      have hpiece := hcs.length_le (List.mem_map_of_mem hx)
      exact Nat.le_succ_of_le ((ih x hx (depth + 1)).trans hpiece)
  | @object ms hnames hunpaired h ih =>
      obtain ⟨cs, hcs, hwrite⟩ := exists_write_object layout depth ms
      refine height_object_le_iff.mpr ⟨cs.length + 1, by simp [hwrite], fun m hm => ?_⟩
      have hpiece := hcs.length_le (List.mem_map_of_mem (mem_sortMembers.mpr hm))
      have hvalue : (write layout (depth + 1) m.2).length ≤
          (writeMember layout m.1 (write layout (depth + 1) m.2)).length := by
        simp only [writeMember, List.length_append, List.length_cons]
        omega
      exact Nat.le_succ_of_le ((ih m hm (depth + 1)).trans (hvalue.trans hpiece))
  | _ => exact Nat.zero_le _

end Lines

/-! ### Tokens -/

/-- The first character of a value. -/
def Opens (c : Char) : Prop :=
  isSpace c = false ∧ c ≠ ']' ∧ c ≠ Char.ofNat 0xFEFF

instance (c : Char) : Decidable (Opens c) :=
  inferInstanceAs (Decidable (_ ∧ _ ∧ _))

theorem ne_of_isDigit {d : Char} (h : isDigit c = true) (hd : isDigit d = false) : c ≠ d := by
  rintro rfl
  rw [h] at hd
  cases hd

/-- No name starts like a numeral. -/
theorem find?_names (h : isDigit c = true) (negative : Bool) :
    ((names : List (List Char × Json τ)).find? fun n =>
      n.1.isPrefixOf (Numeral.signText negative ++ c :: cs)) = none := by
  have hn := ne_of_isDigit h (d := 'n') rfl
  have ht := ne_of_isDigit h (d := 't') rfl
  have hf := ne_of_isDigit h (d := 'f') rfl
  have hN := ne_of_isDigit h (d := 'N') rfl
  have hI := ne_of_isDigit h (d := 'I') rfl
  have hminus := ne_of_isDigit h (d := '-') rfl
  cases negative <;>
    simp [names, Numeral.signText, List.isPrefixOf, hn.symm, ht.symm, hf.symm, hN.symm, hI.symm,
      hminus.symm]

/-- If the value is an object, no two of its members have one name. -/
def NamedOnce (j : Json τ) : Prop :=
  ∀ ms, j = .object ms → (ms.map Prod.fst).Nodup

theorem namedOnce_readNumber (h : readNumber cs = .ok (j, rest)) : NamedOnce j := by
  rintro ms rfl
  simp only [readNumber] at h
  generalize wholePart _ = whole at h
  split at h
  · cases h
  · generalize fractionPart _ = fraction at h
    split at h
    · cases h
    · split at h
      · split at h <;> cases h
      · cases h

theorem namedOnce_readScalar (h : readScalar cs = .ok (j, rest)) : NamedOnce j := by
  unfold readScalar at h
  split at h
  next name json hfound =>
    obtain ⟨rfl, -⟩ := Prod.mk.inj (Except.ok.inj h)
    have hall : ∀ n ∈ (names : List (List Char × Json τ)), NamedOnce n.2 := by
      simp only [names, List.forall_mem_cons]
      refine ⟨?_, ?_, ?_, ?_, ?_, ?_, List.forall_mem_nil _⟩ <;> (intro ms hms; cases hms)
    exact hall _ (List.mem_of_find?_eq_some hfound)
  next => exact namedOnce_readNumber h

variable [Spelled τ]

/-- The name of a member or a text is read back up to its closing quote. -/
theorem readText_writeText (layout : Layout) {text : τ}
    (hunpaired : Text.Unpaired (Spelled.points text)) (rest : List Char)
    (hfuel : (writeText layout text).length ≤ fuel) :
    ∃ body, writeText layout text ++ rest = '"' :: body ∧
      readText ('"' :: body) fuel [] body = .ok (text, rest) := by
  refine ⟨_, by rw [writeText, List.append_assoc, List.cons_append], ?_⟩
  rw [List.singleton_append, readText_flatMap hunpaired, List.reverse_nil, List.nil_append,
    Spelled.ofPoints_points]
  simp only [writeText, List.length_append, List.length_cons] at hfuel
  omega

theorem writeMember_opens (layout : Layout) (name : τ) (value : List Char) :
    ∃ c rest, writeMember layout name value = c :: rest ∧ isSpace c = false :=
  ⟨'"', _, rfl, rfl⟩

variable [DecidableEq τ]

/-- The text is read as the value, whatever follows it that is no part of a numeral. -/
structure Reads (room : Nat) (cs : List Char) (j : Json τ) : Prop where
  opens : ∃ c rest, cs = c :: rest ∧ Opens c
  reads : ∀ fuel rest, 2 * cs.length ≤ fuel → EndsNumeral rest →
    readValue fuel room (cs ++ rest) = .ok (j, rest)

theorem readValue_scalar (hquote : c ≠ '"') (harray : c ≠ '[') (hobject : c ≠ '\x7b') :
    (readValue (fuel + 1) room (c :: cs) : Except Stop (Json τ × List Char)) =
      readScalar (c :: cs) := by
  rw [readValue.eq_def]
  split
  next heq => cases heq
  next heq =>
    obtain rfl := Nat.succ.inj heq
    split
    next h => exact absurd (List.cons.inj h).1 hquote
    next h => exact absurd (List.cons.inj h).1 harray
    next h => exact absurd (List.cons.inj h).1 hobject
    next => rfl

theorem reads_scalar (hopens : Opens c) (hquote : c ≠ '"') (harray : c ≠ '[')
    (hobject : c ≠ '\x7b')
    (h : ∀ rest, EndsNumeral rest → readScalar (c :: cs ++ rest) = .ok (j, rest)) :
    Reads room (c :: cs) j := by
  refine ⟨⟨c, cs, rfl, hopens⟩, fun fuel rest hfuel hrest => ?_⟩
  obtain ⟨fuel, rfl⟩ : ∃ n, fuel = n + 1 := ⟨fuel - 1, by simp at hfuel; omega⟩
  rw [List.cons_append, readValue_scalar hquote harray hobject]
  exact h rest hrest

/-- Each of the names is read as its value. -/
theorem reads_name {chars : List Char} (h : (chars, j) ∈ names) : Reads room chars j := by
  simp only [names, List.mem_cons, Prod.mk.injEq, List.not_mem_nil, or_false] at h
  rcases h with ⟨rfl, rfl⟩ | ⟨rfl, rfl⟩ | ⟨rfl, rfl⟩ | ⟨rfl, rfl⟩ | ⟨rfl, rfl⟩ | ⟨rfl, rfl⟩
  · exact reads_scalar (by decide) (by decide) (by decide) (by decide) fun _ _ => rfl
  · exact reads_scalar (by decide) (by decide) (by decide) (by decide) fun _ _ => rfl
  · exact reads_scalar (by decide) (by decide) (by decide) (by decide) fun _ _ => rfl
  · exact reads_scalar (by decide) (by decide) (by decide) (by decide) fun _ _ => rfl
  · exact reads_scalar (by decide) (by decide) (by decide) (by decide) fun _ _ => rfl
  · exact reads_scalar (by decide) (by decide) (by decide) (by decide) fun _ _ => rfl

/-- A numeral is read as its value. -/
theorem reads_numeral {m : Numeral} (h : m.IsFormed)
    (hshort : m.IsReal ∨ m.whole.length ≤ maxDigits) (negative : Bool) :
    Reads room (Numeral.signText negative ++ m.text) (m.json negative : Json τ) := by
  obtain ⟨d, ds, hds, hd⟩ := h.text_eq_cons
  have hread (rest : List Char) (hrest : EndsNumeral rest) :
      readScalar (Numeral.signText negative ++ (m.text ++ rest)) =
        .ok ((m.json negative : Json τ), rest) := by
    have hnone : ((names : List (List Char × Json τ)).find? fun n =>
        n.1.isPrefixOf (Numeral.signText negative ++ (m.text ++ rest))) = none := by
      rw [hds]
      exact find?_names hd negative
    rw [readScalar, hnone]
    exact h.readNumber_eq hshort hrest negative
  cases negative
  · have hspace : isSpace d = false := by
      simp only [isSpace, Bool.or_eq_false_iff, decide_eq_false_iff_not]
      exact ⟨⟨⟨ne_of_isDigit hd rfl, ne_of_isDigit hd rfl⟩, ne_of_isDigit hd rfl⟩,
        ne_of_isDigit hd rfl⟩
    have hopens : Opens d := ⟨hspace, ne_of_isDigit hd rfl, ne_of_isDigit hd (by decide)⟩
    rw [Numeral.signText, hds] at hread ⊢
    exact reads_scalar hopens (ne_of_isDigit hd rfl) (ne_of_isDigit hd rfl)
      (ne_of_isDigit hd rfl) hread
  · have hopens : Opens '-' := by decide
    exact reads_scalar hopens (by decide) (by decide) (by decide) hread

theorem reads_writeInteger {n : Int} (h : (Nat.toDigits 10 n.natAbs).length ≤ maxDigits) :
    Reads room (writeInteger n) (.integer n : Json τ) := by
  rw [Numeral.writeInteger_eq, ← Numeral.json_ofNat]
  exact reads_numeral (Numeral.isFormed_ofNat n.natAbs) (Or.inr h) _

theorem reads_writeReal {x : Binary64} (h : x.Canonical) :
    Reads room (writeReal x) (.real x : Json τ) := by
  match x with
  | .nan => exact reads_name (List.mem_of_getElem? (i := 3) rfl)
  | .infinity false => exact reads_name (List.mem_of_getElem? (i := 4) rfl)
  | .infinity true => exact reads_name (List.mem_of_getElem? (i := 5) rfl)
  | .finite negative s e =>
    obtain ⟨m, hformed, hreal, htext, hvalue⟩ := Numeral.exists_finiteText_eq h
    have hjson : m.json negative = (.real (.finite negative s e) : Json τ) := by
      have hparts : (m.fraction.isEmpty && m.power.isNone) = false := by
        rw [Bool.and_eq_false_iff, List.isEmpty_eq_false_iff, ← Bool.not_eq_true,
          Option.isNone_iff_eq_none]
        exact hreal
      rw [Numeral.json, hparts, hvalue]
      rfl
    change Reads room (Binary64.finiteText negative s e) _
    rw [htext, ← hjson]
    exact reads_numeral hformed (Or.inl hreal) negative

theorem reads_writeText (layout : Layout) {text : τ}
    (hunpaired : Text.Unpaired (Spelled.points text)) :
    Reads room (writeText layout text) (.text text) := by
  have hopens : Opens '"' := by decide
  refine ⟨⟨'"', _, rfl, hopens⟩, fun fuel rest hfuel _ => ?_⟩
  have hpos : 0 < (writeText layout text).length := Nat.succ_pos _
  obtain ⟨fuel, rfl⟩ : ∃ n, fuel = n + 1 := ⟨fuel - 1, by omega⟩
  have hbody : (writeText layout text).length ≤ fuel := by omega
  obtain ⟨body, hbody, hread⟩ := readText_writeText layout hunpaired rest hbody
  rw [hbody, readValue]
  simp only [hread]

/-! ### Pieces between brackets -/

/-- Behind the blanks in front of them, pieces start with their first piece. -/
theorem exists_skipSpace_joined {piece : List Char} {pieces : List (List Char)}
    (h : Joined (piece :: pieces) cs) (hpiece : ∃ c rest, piece = c :: rest ∧ isSpace c = false) :
    ∃ tail, ∀ rest, skipSpace (cs ++ rest) = piece ++ (tail ++ rest) := by
  obtain ⟨c, text, rfl, hc⟩ := hpiece
  generalize hall : (c :: text) :: pieces = all at h
  cases h with
  | nil => cases hall
  | @last before _ after hbefore =>
      cases hall
      refine ⟨after, fun rest => ?_⟩
      rw [List.append_assoc, List.append_assoc, List.cons_append, skipSpace_gap hbefore hc]
  | @cons before _ after cs _ hbefore =>
      cases hall
      refine ⟨after ++ ',' :: cs, fun rest => ?_⟩
      rw [List.append_assoc, List.append_assoc, List.cons_append, skipSpace_gap hbefore hc]

section Arrays

variable {done : List (Json τ)} {items : List (List Char × Json τ)}

theorem readItems_last (hvalue : readValue fuel room cs = .ok (j, tail))
    (hstop : skipSpace tail = ']' :: rest) :
    readItems (fuel + 1) room done cs = .ok (.array (j :: done).reverse, rest) := by
  rw [readItems, hvalue]
  simp only [hstop]

theorem readItems_comma (hvalue : readValue fuel room cs = .ok (j, tail))
    (hstop : skipSpace tail = ',' :: more) :
    readItems (fuel + 1) room done cs = readItems fuel room (j :: done) (skipSpace more) := by
  rw [readItems, hvalue]
  simp only [hstop]

theorem Reads.exists_cons (h : Reads room cs j) : ∃ c rest, cs = c :: rest ∧ isSpace c = false := by
  obtain ⟨c, rest, hcs, hopens⟩ := h.opens
  exact ⟨c, rest, hcs, hopens.1⟩

theorem skipSpace_piece {before piece : List Char} (hbefore : IsGap before)
    (hpiece : ∃ c rest, piece = c :: rest ∧ isSpace c = false) :
    skipSpace (before ++ (piece ++ tail)) = piece ++ tail := by
  obtain ⟨c, rest, rfl, hc⟩ := hpiece
  rw [List.cons_append, skipSpace_gap hbefore hc]

/-- Items that are each read back are read back together. -/
theorem readItems_joined (done : List (Json τ)) (rest : List Char)
    (h : ∀ i ∈ items, Reads room i.1 i.2)
    (hne : items ≠ []) (hcs : Joined (items.map Prod.fst) cs)
    (hfuel : 2 * cs.length + 2 ≤ fuel) :
    readItems fuel room done (skipSpace (cs ++ ']' :: rest)) =
      .ok (.array (done.reverse ++ items.map Prod.snd), rest) := by
  induction items generalizing cs done fuel with
  | nil => exact absurd rfl hne
  | cons i items ih =>
      have hi := h i List.mem_cons_self
      obtain ⟨fuel, rfl⟩ : ∃ n, fuel = n + 1 := ⟨fuel - 1, by omega⟩
      rw [List.map_cons] at hcs ⊢
      generalize hpieces : items.map Prod.fst = pieces at hcs
      cases hcs with
      | @last before _ after hbefore hafter =>
          rw [List.map_eq_nil_iff] at hpieces
          simp only [List.length_append] at hfuel
          have hvalue := hi.reads fuel (after ++ ']' :: rest) (by omega)
            (endsNumeral_gap hafter (Or.inr (Or.inl rfl)))
          rw [List.append_assoc, List.append_assoc, skipSpace_piece hbefore hi.exists_cons,
            readItems_last hvalue (skipSpace_gap hafter rfl), hpieces, List.reverse_cons]
          rfl
      | @cons before _ after more _ hbefore hafter hnext hmore =>
          have hitems : items ≠ [] := fun hnil => hnext (by rw [← hpieces, hnil]; rfl)
          simp only [List.length_append, List.length_cons] at hfuel
          have hvalue := hi.reads fuel (after ++ ',' :: (more ++ ']' :: rest)) (by omega)
            (endsNumeral_gap hafter (Or.inl rfl))
          have hmoreFuel : 2 * more.length + 2 ≤ fuel := by omega
          have hrest := ih (i.2 :: done) (fun i hmem => h i (List.mem_cons_of_mem _ hmem)) hitems
            (hpieces ▸ hmore) hmoreFuel
          rw [List.append_assoc, List.append_assoc, List.append_assoc, List.cons_append,
            skipSpace_piece hbefore hi.exists_cons,
            readItems_comma hvalue (skipSpace_gap hafter rfl), hrest, List.reverse_cons,
            List.append_assoc]
          rfl

/-- An array is read by its items. -/
theorem Reads.array (h : ∀ i ∈ items, Reads room i.1 i.2) (hcs : Joined (items.map Prod.fst) cs) :
    Reads (room + 1) ('[' :: (cs ++ [']'])) (.array (items.map Prod.snd)) := by
  have hopens : Opens '[' := by decide
  refine ⟨⟨'[', _, rfl, hopens⟩, fun fuel rest hfuel _ => ?_⟩
  simp only [List.length_cons, List.length_append, List.length_nil] at hfuel
  obtain ⟨fuel, rfl⟩ : ∃ n, fuel = n + 1 := ⟨fuel - 1, by omega⟩
  rw [List.cons_append, List.append_assoc, List.singleton_append, readValue]
  cases items with
  | nil =>
      cases hcs with
      | nil hgap =>
          rw [skipSpace_gap hgap (by rfl)]
          rfl
  | cons i items =>
      have hi := h i List.mem_cons_self
      obtain ⟨c, text, htext, hc⟩ := hi.opens
      obtain ⟨tail, hskip⟩ := exists_skipSpace_joined hcs hi.exists_cons
      have hfuel' : 2 * cs.length + 2 ≤ fuel := by omega
      have hread := readItems_joined [] rest h (List.cons_ne_nil i items) hcs hfuel'
      rw [hskip, htext, List.cons_append] at hread ⊢
      split
      next heq => exact absurd (List.cons.inj heq).1 hc.2.1
      next => exact hread

end Arrays

section Objects

variable {done : List (τ × Json τ)} {members : List (τ × List Char × Json τ)} {body : List Char}

theorem readMembers_last (hname : readText ('"' :: body) fuel [] body = .ok (name, ':' :: more))
    (hvalue : readValue fuel room (skipSpace more) = .ok (j, tail))
    (hstop : skipSpace tail = '\x7d' :: rest) :
    readMembers (fuel + 1) room done ('"' :: body) =
      .ok (.object (OrderedMap.ofList ((name, j) :: done).reverse).entries, rest) := by
  rw [readMembers, hname]
  simp only [skipSpace_cons (show isSpace ':' = false by rfl), hvalue, hstop]

theorem readMembers_comma {next : List Char}
    (hname : readText ('"' :: body) fuel [] body = .ok (name, ':' :: more))
    (hvalue : readValue fuel room (skipSpace more) = .ok (j, tail))
    (hstop : skipSpace tail = ',' :: next) :
    readMembers (fuel + 1) room done ('"' :: body) =
      readMembers fuel room ((name, j) :: done) (skipSpace next) := by
  rw [readMembers, hname]
  simp only [skipSpace_cons (show isSpace ':' = false by rfl), hvalue, hstop]

/-- A name and its value are read back behind one another. -/
theorem exists_readMember (layout : Layout) (hunpaired : Text.Unpaired (Spelled.points name))
    {value : List Char} (h : Reads room value j)
    (hfuel : 2 * (writeMember layout name value).length ≤ fuel) (hrest : EndsNumeral rest) :
    ∃ body more, writeMember layout name value ++ rest = '"' :: body ∧
      readText ('"' :: body) fuel [] body = .ok (name, ':' :: more) ∧
      readValue fuel room (skipSpace more) = .ok (j, rest) := by
  simp only [writeMember, List.length_append, List.length_cons] at hfuel
  have hnameFuel : (writeText layout name).length ≤ fuel := by omega
  obtain ⟨body, hbody, hname⟩ :=
    readText_writeText layout hunpaired (':' :: ' ' :: (value ++ rest)) hnameFuel
  refine ⟨body, ' ' :: (value ++ rest), ?_, hname, ?_⟩
  · rw [writeMember, List.append_assoc]
    exact hbody
  · have hblank : IsGap [' '] := isGap_singleton rfl
    rw [← List.singleton_append, skipSpace_piece hblank h.exists_cons]
    exact h.reads fuel rest (by omega) hrest

/-- Members whose values are each read back are read back together. -/
theorem readMembers_joined (done : List (τ × Json τ)) (rest : List Char)
    (hunpaired : ∀ m ∈ members, Text.Unpaired (Spelled.points m.1))
    (h : ∀ m ∈ members, Reads room m.2.1 m.2.2) (hne : members ≠ [])
    (hcs : Joined (members.map fun m => writeMember layout m.1 m.2.1) cs)
    (hfuel : 2 * cs.length + 2 ≤ fuel) :
    readMembers fuel room done (skipSpace (cs ++ '\x7d' :: rest)) =
      .ok (.object (OrderedMap.ofList
        (done.reverse ++ members.map fun m => (m.1, m.2.2))).entries, rest) := by
  induction members generalizing cs done fuel with
  | nil => exact absurd rfl hne
  | cons m members ih =>
      have hm := h m List.mem_cons_self
      have hname := hunpaired m List.mem_cons_self
      obtain ⟨fuel, rfl⟩ : ∃ n, fuel = n + 1 := ⟨fuel - 1, by omega⟩
      rw [List.map_cons] at hcs ⊢
      generalize hpieces : (members.map fun m => writeMember layout m.1 m.2.1) = pieces at hcs
      cases hcs with
      | @last before _ after hbefore hafter =>
          rw [List.map_eq_nil_iff] at hpieces
          simp only [List.length_append] at hfuel
          have hmemberFuel : 2 * (writeMember layout m.1 m.2.1).length ≤ fuel := by omega
          have hends : EndsNumeral (after ++ '\x7d' :: rest) :=
            endsNumeral_gap hafter (Or.inr (Or.inr rfl))
          obtain ⟨body, more, hbody, hread, hvalue⟩ :=
            exists_readMember layout hname hm hmemberFuel hends
          rw [List.append_assoc, List.append_assoc,
            skipSpace_piece hbefore (writeMember_opens layout _ _), hbody,
            readMembers_last hread hvalue (skipSpace_gap hafter rfl), hpieces, List.reverse_cons]
          rfl
      | @cons before _ after more _ hbefore hafter hnext hmore =>
          have hmembers : members ≠ [] := fun hnil => hnext (by rw [← hpieces, hnil]; rfl)
          simp only [List.length_append, List.length_cons] at hfuel
          have hmemberFuel : 2 * (writeMember layout m.1 m.2.1).length ≤ fuel := by omega
          have hends : EndsNumeral (after ++ ',' :: (more ++ '\x7d' :: rest)) :=
            endsNumeral_gap hafter (Or.inl rfl)
          obtain ⟨body, value, hbody, hread, hvalue⟩ :=
            exists_readMember layout hname hm hmemberFuel hends
          have hmoreFuel : 2 * more.length + 2 ≤ fuel := by omega
          have hrest := ih ((m.1, m.2.2) :: done)
            (fun m hmem => hunpaired m (List.mem_cons_of_mem _ hmem))
            (fun m hmem => h m (List.mem_cons_of_mem _ hmem)) hmembers (hpieces ▸ hmore) hmoreFuel
          rw [List.append_assoc, List.append_assoc, List.append_assoc, List.cons_append,
            skipSpace_piece hbefore (writeMember_opens layout _ _), hbody,
            readMembers_comma hread hvalue (skipSpace_gap hafter rfl), hrest, List.reverse_cons,
            List.append_assoc]
          rfl

/-- An object whose names are all different is read by its members. -/
theorem Reads.object (hnames : (members.map Prod.fst).Nodup)
    (hunpaired : ∀ m ∈ members, Text.Unpaired (Spelled.points m.1))
    (h : ∀ m ∈ members, Reads room m.2.1 m.2.2)
    (hcs : Joined (members.map fun m => writeMember layout m.1 m.2.1) cs) :
    Reads (room + 1) ('\x7b' :: (cs ++ ['\x7d']))
      (.object (members.map fun m => (m.1, m.2.2))) := by
  have hopens : Opens '\x7b' := by decide
  refine ⟨⟨'\x7b', _, rfl, hopens⟩, fun fuel rest hfuel _ => ?_⟩
  simp only [List.length_cons, List.length_append, List.length_nil] at hfuel
  obtain ⟨fuel, rfl⟩ : ∃ n, fuel = n + 1 := ⟨fuel - 1, by omega⟩
  rw [List.cons_append, List.append_assoc, List.singleton_append, readValue]
  cases members with
  | nil =>
      cases hcs with
      | nil hgap =>
          rw [skipSpace_gap hgap (by rfl)]
          rfl
  | cons m members =>
      obtain ⟨tail, hskip⟩ := exists_skipSpace_joined hcs (writeMember_opens layout m.1 m.2.1)
      have hfuel' : 2 * cs.length + 2 ≤ fuel := by omega
      have hread :=
        readMembers_joined [] rest hunpaired h (List.cons_ne_nil m members) hcs hfuel'
      have hentries : (((m :: members).map fun m => (m.1, m.2.2)).map Prod.fst).Nodup := by
        rw [List.map_map]
        exact hnames
      rw [List.reverse_nil, List.nil_append, OrderedMap.entries_ofList_of_nodup hentries] at hread
      have hquote : ∃ body, writeMember layout m.1 m.2.1 ++ (tail ++ '\x7d' :: rest) =
          '"' :: body := ⟨_, rfl⟩
      obtain ⟨body, hbody⟩ := hquote
      rw [hskip, hbody] at hread ⊢
      exact hread

end Objects

/-! ### Objects that are read -/

theorem namedOnce_readItems {done : List (Json τ)}
    (h : readItems fuel room done cs = .ok (j, rest)) :
    NamedOnce j := by
  induction fuel generalizing done cs with
  | zero => cases h
  | succ fuel ih =>
      rw [readItems] at h
      split at h
      · cases h
      split at h
      · obtain ⟨rfl, -⟩ := Prod.mk.inj (Except.ok.inj h)
        intro ms hms
        cases hms
      · exact ih h
      · cases h

theorem namedOnce_readMembers {done : List (τ × Json τ)}
    (h : readMembers fuel room done cs = .ok (j, rest)) : NamedOnce j := by
  induction fuel generalizing done cs with
  | zero => cases h
  | succ fuel ih =>
      rw [readMembers.eq_def] at h
      simp only at h
      split at h
      · split at h
        · cases h
        split at h
        · split at h
          · cases h
          split at h
          · obtain ⟨rfl, -⟩ := Prod.mk.inj (Except.ok.inj h)
            intro ms hms
            obtain rfl := Json.object.inj hms
            exact OrderedMap.nodup_keys_ofList _
          · exact ih h
          · cases h
        · cases h
      · cases h

theorem namedOnce_readValue (h : readValue fuel room cs = .ok (j, rest)) : NamedOnce j := by
  cases fuel with
  | zero => cases h
  | succ fuel =>
      rw [readValue.eq_def] at h
      simp only at h
      split at h
      · split at h
        · obtain ⟨rfl, -⟩ := Prod.mk.inj (Except.ok.inj h)
          intro ms hms
          cases hms
        · cases h
      · split at h
        · cases h
        split at h
        · obtain ⟨rfl, -⟩ := Prod.mk.inj (Except.ok.inj h)
          intro ms hms
          cases hms
        · exact namedOnce_readItems h
      · split at h
        · cases h
        split at h
        · obtain ⟨rfl, -⟩ := Prod.mk.inj (Except.ok.inj h)
          intro ms hms
          obtain rfl := Json.object.inj hms
          exact List.nodup_nil
        · exact namedOnce_readMembers h
      · exact namedOnce_readScalar h

/-- An object that is read has no two members of one name. -/
theorem nodup_names_of_readWithin {ms : List (τ × Json τ)}
    (h : readWithin room cs = .ok (.object ms)) : (ms.map Prod.fst).Nodup := by
  unfold readWithin at h
  split at h
  · cases h
  split at h
  · cases h
  next hvalue =>
    split at h
    · obtain rfl := Except.ok.inj h
      exact namedOnce_readValue hvalue ms rfl
    · cases h

/-! ### Brackets that are nested too deep -/

/-- Reading breaks off at the first bracket that there is no room for. -/
theorem readValue_replicate {n : Nat} (h : room < n) (hfuel : 2 * room < fuel) :
    (readValue fuel room (List.replicate n '[') : Except Stop (Json τ × List Char)) =
      .error (.tooDeep .array) := by
  induction room generalizing n fuel with
  | zero =>
      obtain ⟨n, rfl⟩ := Nat.exists_eq_add_one_of_ne_zero (Nat.ne_of_gt h)
      obtain ⟨fuel, rfl⟩ := Nat.exists_eq_add_one_of_ne_zero (Nat.ne_of_gt hfuel)
      rfl
  | succ room ih =>
      -- each bracket is entered by two calls, for the array and for its first item
      obtain ⟨n, rfl⟩ : ∃ m, n = m + 2 := ⟨n - 2, by omega⟩
      obtain ⟨fuel, rfl⟩ : ∃ m, fuel = m + 2 := ⟨fuel - 2, by omega⟩
      have hinner : (readValue fuel room (List.replicate (n + 1) '[') :
          Except Stop (Json τ × List Char)) = .error (.tooDeep .array) := ih (by omega) (by omega)
      rw [List.replicate_succ] at hinner
      have hitems : (readItems (fuel + 1) room [] ('[' :: List.replicate n '[') :
          Except Stop (Json τ × List Char)) = .error (.tooDeep .array) := by
        rw [readItems, hinner]
      rw [List.replicate_succ, List.replicate_succ, readValue]
      simp only [skipSpace_cons (show isSpace '[' = false by rfl)]
      exact hitems

theorem readWithin_replicate {n : Nat} (h : room < n) :
    (readWithin room (List.replicate n '[') : Except Fault (Json τ)) =
      .error (.tooDeep .array) := by
  obtain ⟨n, rfl⟩ := Nat.exists_eq_add_one_of_ne_zero (Nat.ne_of_gt (Nat.zero_lt_of_lt h))
  have hskip : skipSpace (List.replicate (n + 1) '[') = List.replicate (n + 1) '[' :=
    skipSpace_cons rfl
  have hmark : (List.replicate (n + 1) '[').head? ≠ some (Char.ofNat 0xFEFF) := by
    rw [List.replicate_succ, List.head?_cons]
    decide
  rw [readWithin, if_neg hmark, hskip, readValue_replicate h (by simp; omega)]
  rfl

/-! ### Trees -/

variable [LE τ] [DecidableLE τ]

/-- The text of a tree is read as the tree with its members in the order of their names. -/
theorem reads_write (layout : Layout) (h : Legible j) (hroom : j.height ≤ room) (depth : Nat) :
    Reads room (write layout depth j) j.sorted := by
  induction h generalizing room depth with
  | null => exact reads_name (List.mem_of_getElem? (i := 0) rfl)
  | bool b =>
      cases b
      · exact reads_name (List.mem_of_getElem? (i := 2) rfl)
      · exact reads_name (List.mem_of_getElem? (i := 1) rfl)
  | integer h => exact reads_writeInteger h
  | real h => exact reads_writeReal h
  | text h => exact reads_writeText layout h
  | @array xs h ih =>
      obtain ⟨inner, rfl, hinner⟩ := height_array_le_iff.mp hroom
      obtain ⟨cs, hcs, hwrite⟩ := exists_write_array layout depth xs
      have hitems : ∀ i ∈ xs.map fun x => (write layout (depth + 1) x, x.sorted),
          Reads inner i.1 i.2 := by
        intro i hi
        obtain ⟨x, hx, rfl⟩ := List.mem_map.mp hi
        exact ih x hx (hinner x hx) (depth + 1)
      have hread := Reads.array hitems (by rwa [List.map_map])
      rw [hwrite, sorted_array]
      rwa [List.map_map] at hread
  | @object ms hnames hunpaired h ih =>
      obtain ⟨inner, rfl, hinner⟩ := height_object_le_iff.mp hroom
      obtain ⟨cs, hcs, hwrite⟩ := exists_write_object layout depth ms
      have hmembers : ∀ m ∈ (sortMembers ms).map fun m =>
          (m.1, write layout (depth + 1) m.2, m.2.sorted),
          Text.Unpaired (Spelled.points m.1) ∧ Reads inner m.2.1 m.2.2 := by
        intro member hmember
        obtain ⟨m, hm, rfl⟩ := List.mem_map.mp hmember
        have hm := mem_sortMembers.mp hm
        exact ⟨hunpaired m hm, ih m hm (hinner m hm) (depth + 1)⟩
      have hdistinct := nodup_names_sortMembers hnames
      have hread := Reads.object (by rwa [List.map_map]) (fun m hm => (hmembers m hm).1)
        (fun m hm => (hmembers m hm).2) (by rwa [List.map_map])
      rw [hwrite, sorted_object]
      rwa [List.map_map] at hread

/-- The text of a tree, with nothing but blanks behind it, is read as this tree. -/
theorem readWithin_write (layout : Layout) (h : Legible j) (hroom : j.height ≤ room)
    (hgap : IsGap gap) : readWithin room (write layout 0 j ++ gap) = .ok j.sorted := by
  have hreads := reads_write layout h hroom 0
  obtain ⟨c, rest, hcs, hspace, -, hmark⟩ := hreads.opens
  have hmark' : (write layout 0 j ++ gap).head? ≠ some (Char.ofNat 0xFEFF) := by
    rw [hcs, List.cons_append, List.head?_cons]
    simpa using hmark
  have hends : EndsNumeral gap := by
    cases gap with
    | nil =>
        intro c hc
        cases hc
    | cons d gap => exact endsNumeral_cons (Or.inl (hgap d List.mem_cons_self))
  have hskip : skipSpace (write layout 0 j ++ gap) = write layout 0 j ++ gap := by
    rw [hcs, List.cons_append, skipSpace_cons hspace]
  have hend : skipSpace gap = [] := by
    rw [← List.append_nil gap, skipSpace_append hgap]
    rfl
  rw [readWithin, if_neg hmark', hskip, hreads.reads _ gap (by simp; omega) hends]
  simp only [hend]

/-- A document has room for all its brackets. -/
theorem readList_write {j : Json} (layout : Layout) (h : Legible j) (hgap : IsGap gap) :
    readList (write layout 0 j ++ gap) = .ok j.sorted := by
  refine readWithin_write layout h ?_ hgap
  rw [List.length_append]
  exact Nat.le_add_right_of_le (height_le_length_write layout h 0)

/-- The text of a tree is read as this tree also where all ends of lines are made alike first. -/
theorem readWithin_unifyLines_write (layout : Layout) (h : Legible j) (hroom : j.height ≤ room) :
    readWithin room (Text.unifyLines (write layout 0 j)) = .ok j.sorted := by
  have hlines : '\r' ∉ write layout 0 j := by
    intro hmem
    exact absurd (printed_write layout h 0 '\r' hmem) (by decide)
  have hread := readWithin_write layout h hroom isGap_nil
  rwa [List.append_nil, ← Text.unifyLines_eq_self hlines] at hread

end ArchiveExport.Json
