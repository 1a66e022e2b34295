import ArchiveExport.Entry.Extension
import Mathlib.Data.List.TakeWhile

/-!
# Stems and extensions

A key with an extension is its stem, a dot and the extension in some case. An ending without dots
that is put behind a name and a dot is its extension.
-/

namespace ArchiveExport.Entry

variable {key name ending : String}

/-- A text that ends in a character of its last component. -/
def EndsInName (text : String) : Prop := ∃ front c, text.toList = front ++ [c] ∧ c ≠ '/'

theorem EndsInName.ne_empty (h : EndsInName name) : name ≠ "" := by
  rintro rfl
  obtain ⟨front, c, hchars, -⟩ := h
  simp at hchars

/-- An ending of a component, without dots. -/
structure IsExtension (ending : String) : Prop where
  noDot : '.' ∉ ending.toList
  noSlash : '/' ∉ ending.toList

/-- What follows a name and a dot is the extension. -/
theorem splitExtension_append (hname : EndsInName name) (hending : IsExtension ending) :
    splitExtension (name ++ "." ++ ending) = (name, Text.lower ending) := by
  obtain ⟨front, c, hlast, hc⟩ := hname
  have hbackward : (name ++ "." ++ ending).toList.reverse =
      ending.toList.reverse ++ '.' :: c :: front.reverse := by
    simp [hlast]
  have htaken : (ending.toList.reverse ++ '.' :: c :: front.reverse).takeWhile
      (fun c => c ≠ '.' ∧ c ≠ '/') = ending.toList.reverse := by
    rw [List.takeWhile_append_of_pos, List.takeWhile_cons]
    · simp
    · intro d hd
      have hmem : d ∈ ending.toList := List.mem_reverse.mp hd
      have hdot : d ≠ '.' := fun h => hending.noDot (h ▸ hmem)
      have hslash : d ≠ '/' := fun h => hending.noSlash (h ▸ hmem)
      simp [hdot, hslash]
  rw [splitExtension, hbackward]
  simp only [htaken, List.drop_left, if_neg hc]
  simp [← hlast]

/-- A key is its own stem, or it has a stem that ends in a name, and an extension behind it. -/
theorem splitExtension_cases (key : String) :
    splitExtension key = (key, "") ∨ ∃ name ending, EndsInName name ∧ IsExtension ending ∧
      key = name ++ "." ++ ending ∧ splitExtension key = (name, Text.lower ending) := by
  have hparts := List.takeWhile_append_dropWhile (p := fun c => decide (c ≠ '.' ∧ c ≠ '/'))
    (l := key.toList.reverse)
  have hsuffix : ∀ c ∈ key.toList.reverse.takeWhile (fun c => decide (c ≠ '.' ∧ c ≠ '/')),
      c ≠ '.' ∧ c ≠ '/' := by
    intro c hc
    simpa using List.mem_takeWhile_imp hc
  have hrest := congrArg (List.drop (key.toList.reverse.takeWhile
    fun c => decide (c ≠ '.' ∧ c ≠ '/')).length) hparts
  rw [List.drop_left] at hrest
  rw [splitExtension, ← hrest]
  generalize key.toList.reverse.takeWhile (fun c => decide (c ≠ '.' ∧ c ≠ '/')) = suffix at *
  generalize key.toList.reverse.dropWhile (fun c => decide (c ≠ '.' ∧ c ≠ '/')) = rest at *
  split
  next c stem =>
    split
    · exact Or.inl rfl
    next hc =>
      refine Or.inr ⟨String.ofList (c :: stem).reverse, String.ofList suffix.reverse,
        ⟨stem.reverse, c, by simp, hc⟩, ⟨?_, ?_⟩, ?_, rfl⟩
      · intro hdot
        exact (hsuffix '.' (by simpa using hdot)).1 rfl
      · intro hslash
        exact (hsuffix '/' (by simpa using hslash)).2 rfl
      · have hkey := congrArg List.reverse hparts
        rw [List.reverse_reverse] at hkey
        rw [← String.toList_inj, ← hkey]
        simp
  next => exact Or.inl rfl

end ArchiveExport.Entry
