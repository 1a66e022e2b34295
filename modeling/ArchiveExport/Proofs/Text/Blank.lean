import ArchiveExport.Text.Blank
import Mathlib.Data.List.TakeWhile

/-!
# Stripped texts

What is left of a text without the blanks at both ends is the one part of it that has nothing but
blanks around it and neither begins nor ends with a blank.
-/

namespace ArchiveExport.Text

variable {cs ts front back : List Char}

/-- The second list is the first one without the blanks at both ends. -/
structure Stripped (cs ts : List Char) : Prop where
  around : ∃ front back, cs = front ++ ts ++ back ∧ ∀ c ∈ front ++ back, isBlank c = true
  head : ∀ c ∈ ts.head?, isBlank c = false
  last : ∀ c ∈ ts.getLast?, isBlank c = false

theorem dropWhile_isBlank_append (hfront : ∀ c ∈ front, isBlank c = true)
    (hhead : ∀ c ∈ ts.head?, isBlank c = false) : (front ++ ts).dropWhile isBlank = ts := by
  rw [List.dropWhile_append_of_pos hfront]
  cases ts with
  | nil => rfl
  | cons c ts => rw [List.dropWhile_cons_of_neg (by simp [hhead c rfl])]

theorem trimList_of_stripped (h : Stripped cs ts) : trimList cs = ts := by
  obtain ⟨⟨front, back, rfl, hblank⟩, hhead, hlast⟩ := h
  rw [List.forall_mem_append] at hblank
  obtain ⟨hfront, hback⟩ := hblank
  by_cases hempty : ts = []
  · subst hempty
    have hall : (front ++ back).dropWhile isBlank = [] := by
      rw [List.dropWhile_eq_nil_iff, List.forall_mem_append]
      exact ⟨hfront, hback⟩
    simp [trimList, hall]
  · have hbegin : (front ++ ts ++ back).dropWhile isBlank = ts ++ back := by
      rw [List.append_assoc]
      refine dropWhile_isBlank_append hfront ?_
      obtain ⟨c, rest, rfl⟩ := List.exists_cons_of_ne_nil hempty
      simpa using hhead
    have hend : (back.reverse ++ ts.reverse).dropWhile isBlank = ts.reverse := by
      refine dropWhile_isBlank_append (by simpa using hback) ?_
      rwa [List.head?_reverse]
    rw [trimList, hbegin, List.reverse_append, hend, List.reverse_reverse]

theorem stripped_trimList (cs : List Char) : Stripped cs (trimList cs) := by
  have hbegin : cs.takeWhile isBlank ++ cs.dropWhile isBlank = cs :=
    List.takeWhile_append_dropWhile
  generalize hrest : cs.dropWhile isBlank = rest at hbegin
  have hend : trimList cs ++ (rest.reverse.takeWhile isBlank).reverse = rest := by
    rw [trimList, hrest, ← List.reverse_append, List.takeWhile_append_dropWhile,
      List.reverse_reverse]
  constructor
  · refine ⟨cs.takeWhile isBlank, (rest.reverse.takeWhile isBlank).reverse, ?_, ?_⟩
    · rw [List.append_assoc, hend, hbegin]
    · rw [List.forall_mem_append]
      refine ⟨fun c hc => List.mem_takeWhile_imp hc, fun c hc => ?_⟩
      exact List.mem_takeWhile_imp (List.mem_reverse.mp hc)
  · intro c hc
    have hfirst : c ∈ rest.head? := by
      rw [← hend, Option.mem_def, List.head?_append, Option.mem_def.mp hc, Option.some_or]
    rw [← hrest] at hfirst
    have hstop := List.head?_dropWhile_not isBlank cs
    rw [Option.mem_def.mp hfirst] at hstop
    simpa using hstop
  · intro c hc
    have hstop := List.head?_dropWhile_not isBlank rest.reverse
    rw [trimList, hrest, List.getLast?_reverse] at hc
    rw [Option.mem_def.mp hc] at hstop
    simpa using hstop

/-- A text that neither begins nor ends with a blank stays as it is. -/
theorem trimList_eq_self (hhead : ∀ c ∈ ts.head?, isBlank c = false)
    (hlast : ∀ c ∈ ts.getLast?, isBlank c = false) : trimList ts = ts :=
  trimList_of_stripped ⟨⟨[], [], by simp, by simp⟩, hhead, hlast⟩

end ArchiveExport.Text
