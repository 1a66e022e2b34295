import ArchiveExport.Text.Basic
import ArchiveExport.Text.Lines
import Mathlib.Data.List.Basic

/-!
# Splitting and joining

Splitting a text and joining the pieces gives the text back, and so the other way round where no
piece holds the separator. What is put behind a text without the separator lands in its last piece.
-/

namespace ArchiveExport.Text

variable {sep : Char} {mark text ending : String} {pieces : List String}

theorem splitOn_eq (sep : Char) (text : List Char) : splitOn sep text = text.splitOn sep := by
  induction text with
  | nil => rfl
  | cons c rest ih =>
      rw [splitOn, List.splitOn_cons_eq_if_modifyHead, ← ih]
      by_cases h : c = sep
      · simp [h]
      · obtain ⟨piece, others, hsplit⟩ := List.exists_cons_of_ne_nil (splitOn_ne_nil sep rest)
        simp [h, hsplit]

theorem split_ne_nil (sep : Char) (text : String) : split sep text ≠ [] := by
  rw [split, ne_eq, List.map_eq_nil_iff]
  exact splitOn_ne_nil sep text.toList

theorem not_mem_of_mem_split {piece : String} (h : piece ∈ split sep text) :
    sep ∉ piece.toList := by
  obtain ⟨cs, hcs, rfl⟩ := List.mem_map.mp h
  rw [String.toList_ofList]
  exact not_mem_of_mem_splitOn hcs

theorem map_toList_split (sep : Char) (text : String) :
    (split sep text).map String.toList = text.toList.splitOn sep := by
  simp [split, splitOn_eq, Function.comp_def]

/-- Joining the pieces of a text gives it back. -/
theorem join_split (hmark : mark.toList = [sep]) (text : String) :
    join mark (split sep text) = text := by
  rw [← String.toList_inj, join, String.toList_intercalate, map_toList_split, hmark,
    List.intercalate_splitOn]

/-- Pieces without the separator come back from a split. -/
theorem split_join (hmark : mark.toList = [sep]) (hne : pieces ≠ [])
    (h : ∀ piece ∈ pieces, sep ∉ piece.toList) : split sep (join mark pieces) = pieces := by
  have hpieces : ∀ cs ∈ pieces.map String.toList, sep ∉ cs := by
    intro cs hcs
    obtain ⟨piece, hpiece, rfl⟩ := List.mem_map.mp hcs
    exact h piece hpiece
  have hlists : (split sep (join mark pieces)).map String.toList = pieces.map String.toList := by
    rw [map_toList_split, join, String.toList_intercalate, hmark]
    exact List.splitOn_intercalate sep hpieces (by simpa using hne)
  exact List.map_injective_iff.mpr (fun a b => String.toList_inj.mp) hlists

/-- Behind a separator a new piece begins. -/
theorem split_append_piece (hmark : mark.toList = [sep]) (text : String) {piece : String}
    (hpiece : sep ∉ piece.toList) :
    split sep (text ++ mark ++ piece) = split sep text ++ [piece] := by
  have hjoin : text ++ mark ++ piece = join mark (split sep text ++ [piece]) := by
    rw [join, String.intercalate_append_of_ne_nil (split_ne_nil sep text)
      (List.cons_ne_nil piece []), String.intercalate_singleton, ← join, join_split hmark]
  rw [hjoin]
  refine split_join hmark (by simp) fun other hother => ?_
  rcases List.mem_append.mp hother with hold | hnew
  · exact not_mem_of_mem_split hold
  · rwa [List.mem_singleton.mp hnew]

/-- The pieces hold all that is no separator. -/
theorem flatten_splitOn (sep : Char) (text : List Char) :
    (splitOn sep text).flatten = text.filter (· ≠ sep) := by
  induction text with
  | nil => rfl
  | cons c rest ih =>
      by_cases hc : c = sep
      · simp [splitOn, hc, ih]
      · obtain ⟨piece, others, hsplit⟩ := List.exists_cons_of_ne_nil (splitOn_ne_nil sep rest)
        rw [hsplit] at ih
        simpa [splitOn, hc, hsplit] using ih

theorem mem_toList_iff {c : Char} (hc : c ≠ sep) :
    c ∈ text.toList ↔ ∃ piece ∈ split sep text, c ∈ piece.toList := by
  have hflatten : c ∈ (splitOn sep text.toList).flatten ↔ c ∈ text.toList := by
    rw [flatten_splitOn, List.mem_filter]
    simp [hc]
  rw [← hflatten, List.mem_flatten]
  simp [split]

theorem split_inj {other : String} (h : split sep text = split sep other) : text = other := by
  have hmark : (String.singleton sep).toList = [sep] := by simp
  rw [← join_split hmark text, h, join_split hmark]

/-- A text ends in its last piece. -/
theorem exists_append_of_split {front : List String} {last : String}
    (h : split sep text = front ++ [last]) : ∃ before, text = before ++ last := by
  have hmark : (String.singleton sep).toList = [sep] := by simp
  have htext := join_split hmark text
  rw [h, join] at htext
  cases front with
  | nil => exact ⟨"", by rw [← htext]; simp⟩
  | cons first front =>
      rw [String.intercalate_append_of_ne_nil (List.cons_ne_nil first front)
        (List.cons_ne_nil last []), String.intercalate_singleton] at htext
      exact ⟨_, htext.symm⟩

theorem splitOn_append (hending : sep ∉ ending.toList) (cs : List Char) :
    ∃ front last, splitOn sep cs = front ++ [last] ∧
      splitOn sep (cs ++ ending.toList) = front ++ [last ++ ending.toList] := by
  induction cs with
  | nil =>
      refine ⟨[], [], rfl, ?_⟩
      rw [List.nil_append, splitOn_eq, List.nil_append]
      have hjoined : List.splitOn sep ([sep].intercalate [ending.toList]) = [ending.toList] :=
        List.splitOn_intercalate sep (by simpa using hending) (by simp)
      simpa using hjoined
  | cons c rest ih =>
      obtain ⟨front, last, hrest, hlonger⟩ := ih
      by_cases hc : c = sep
      · refine ⟨[] :: front, last, ?_, ?_⟩
        · simp [splitOn, hc, hrest]
        · simp [splitOn, hc, hlonger]
      · cases front with
        | nil =>
            refine ⟨[], c :: last, ?_, ?_⟩
            · simp [splitOn, hc, hrest]
            · simp [splitOn, hc, hlonger]
        | cons first front =>
            refine ⟨(c :: first) :: front, last, ?_, ?_⟩
            · simp [splitOn, hc, hrest]
            · simp [splitOn, hc, hlonger]

/-- An ending without the separator makes the last piece longer and no other. -/
theorem split_append (hending : sep ∉ ending.toList) (text : String) :
    ∃ front last, split sep text = front ++ [last] ∧
      split sep (text ++ ending) = front ++ [last ++ ending] := by
  obtain ⟨front, last, htext, hlonger⟩ := splitOn_append hending text.toList
  refine ⟨front.map String.ofList, String.ofList last, ?_, ?_⟩
  · simp [split, htext]
  · simp [split, hlonger, String.ofList_append]

/-! ### Ends of lines -/

/-- Without carriage returns all ends of lines are alike already. -/
theorem unifyLines_eq_self {cs : List Char} (h : '\r' ∉ cs) : unifyLines cs = cs := by
  induction cs with
  | nil => rfl
  | cons c cs ih =>
      rw [List.mem_cons, not_or] at h
      rw [unifyLines.eq_4 c cs (fun rest hc _ => h.1 hc.symm) fun hc => h.1 hc.symm, ih h.2]

end ArchiveExport.Text
