import ArchiveExport.Archive.Folder
import ArchiveExport.Archive.Grf.Table
import ArchiveExport.Proofs.Text.Lowercase

/-!
# Normalized keys

A key in its normalized spelling has no backslash and does not start with a slash, and in a store of
GRF files it is in lower case. So normalizing it again changes nothing.
-/

namespace ArchiveExport

namespace Text

theorem replace_of_not_mem {old new : Char} {text : String} (h : old ∉ text.toList) :
    replace old new text = text := by
  have hsame : text.toList.map (fun c => if c = old then new else c) = text.toList.map id := by
    refine List.map_congr_left fun c hc => ?_
    have hne : c ≠ old := by
      rintro rfl
      exact h hc
    exact if_neg hne
  rw [replace, hsame, List.map_id, String.ofList_toList]

theorem dropLeading_of_head?_ne {c : Char} {text : String} (h : text.toList.head? ≠ some c) :
    dropLeading c text = text := by
  rw [dropLeading]
  cases htext : text.toList with
  | nil => rw [List.dropWhile_nil, ← htext, String.ofList_toList]
  | cons d ds =>
      have hd : ¬ d = c := by
        rintro rfl
        exact h (by rw [htext, List.head?_cons])
      rw [List.dropWhile_cons, if_neg (by simpa using hd), ← htext, String.ofList_toList]

/-- Lowering a text gives it none of the first characters in front. -/
theorem head?_lowerFrom_ne {before cs : List Char} {c : Char} (hc : c.toNat ≤ 0x60)
    (h : cs.head? ≠ some c) : (lowerFrom before cs).head? ≠ some c := by
  cases cs with
  | nil => exact h
  | cons d ds =>
      obtain ⟨lowered, heq, hne, hlowered⟩ := lowerFrom_cons before d ds
      obtain ⟨e, es, rfl⟩ := List.exists_cons_of_ne_nil hne
      intro hhead
      rw [heq, List.cons_append, List.head?_cons, Option.some.injEq] at hhead
      subst hhead
      rcases (hlowered e List.mem_cons_self).2 with rfl | hbeyond
      · exact h rfl
      · omega

end Text

namespace FolderArchive

theorem noBackslash_normalize (key : String) : '\\' ∉ (normalize key).toList := by
  intro hmem
  rw [normalize, Text.dropLeading, String.toList_ofList] at hmem
  have hreplaced := (List.dropWhile_sublist _).subset hmem
  rw [Text.replace, String.toList_ofList] at hreplaced
  obtain ⟨c, -, hc⟩ := List.mem_map.mp hreplaced
  split at hc
  next => simp at hc
  next hne => exact hne hc

theorem head?_normalize_ne (key : String) : (normalize key).toList.head? ≠ some '/' := by
  rw [normalize, Text.dropLeading, String.toList_ofList]
  intro hhead
  have hdropped := List.head?_dropWhile_not (· = '/') (Text.replace '\\' '/' key).toList
  simp [hhead] at hdropped

/-- A key without backslashes and without a slash in front is normalized. -/
theorem normalize_eq_self {key : String} (hbackslash : '\\' ∉ key.toList)
    (hfront : key.toList.head? ≠ some '/') : normalize key = key := by
  rw [normalize, Text.replace_of_not_mem hbackslash, Text.dropLeading_of_head?_ne hfront]

/-- What has the start of a normalized key and no backslash behind it is normalized. -/
theorem normalize_append_eq_self {front rest ending : String} (hne : front ≠ "")
    (hbackslash : '\\' ∉ (front ++ rest).toList)
    (hfront : (front ++ rest).toList.head? ≠ some '/') (hending : '\\' ∉ ending.toList) :
    normalize (front ++ ending) = front ++ ending := by
  have hhead : ∀ other : String, (front ++ other).toList.head? = front.toList.head? := by
    intro other
    rw [String.toList_append]
    cases hchars : front.toList with
    | nil => exact absurd (String.toList_eq_nil_iff.mp hchars) hne
    | cons c chars => rfl
  rw [String.toList_append, List.mem_append, not_or] at hbackslash
  refine normalize_eq_self ?_ ?_
  · rw [String.toList_append, List.mem_append, not_or]
    exact ⟨hbackslash.1, hending⟩
  · rwa [hhead, ← hhead rest]

theorem normalize_normalize (key : String) : normalize (normalize key) = normalize key :=
  normalize_eq_self (noBackslash_normalize key) (head?_normalize_ne key)

end FolderArchive

namespace Grf

open Text (lowered_of_mem_lowerFrom head?_lowerFrom_ne)

/-- Names are normalized like the keys of folders, and lowered. -/
theorem normalize_eq (name : String) : normalize name = Text.lower (FolderArchive.normalize name) :=
  rfl

theorem toList_normalize (name : String) :
    (normalize name).toList = Text.lowerFrom [] (FolderArchive.normalize name).toList := by
  rw [normalize_eq, Text.lower, String.toList_ofList]

theorem noBackslash_normalize (name : String) : '\\' ∉ (normalize name).toList := by
  intro hmem
  rw [toList_normalize] at hmem
  rcases (lowered_of_mem_lowerFrom hmem).2 with hold | hbeyond
  · exact FolderArchive.noBackslash_normalize name hold
  · exact absurd hbeyond (by decide)

theorem head?_normalize_ne (name : String) : (normalize name).toList.head? ≠ some '/' := by
  rw [toList_normalize]
  exact head?_lowerFrom_ne (by decide) (FolderArchive.head?_normalize_ne name)

/-- Normalizing twice is normalizing once. -/
theorem normalize_normalize (name : String) : normalize (normalize name) = normalize name := by
  calc
    normalize (normalize name) = Text.lower (normalize name) := by
      rw [normalize_eq, FolderArchive.normalize_eq_self (noBackslash_normalize name)
        (head?_normalize_ne name)]
    _ = normalize name := Text.lower_lower _

end Grf

end ArchiveExport
