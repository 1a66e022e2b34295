import ArchiveExport.Proofs.Data.Alignment
import ArchiveExport.Proofs.Data.OrderedMap
import ArchiveExport.Proofs.Disk.Path
import ArchiveExport.Proofs.Entry.Extension
import ArchiveExport.Proofs.Export.Dispatch
import ArchiveExport.Proofs.Text.Lowercase

/-!
# Paths of documents and images

With the standard rules and suffixes no two documents or images have one path. The last letter tells
documents from images, and what stands in front of the suffix tells the entries apart: the number of
an image is no extension for which there are images.
-/

namespace ArchiveExport

open Entry (EndsInName IsExtension)

variable {a b path : String}

/-! ### Numbers of images -/

namespace Naming

/-- The number of an image with at least three digits. -/
def number (index : Nat) : String :=
  String.ofList (List.replicate (3 - (toString index).length) '0') ++ toString index

theorem toList_number (index : Nat) :
    (number index).toList =
      List.replicate (3 - (toString index).length) '0' ++ Nat.toDigits 10 index := by
  rw [number, String.toList_append, String.toList_ofList, Nat.toString_eq_repr, Nat.toList_repr]

theorem isDigit_of_mem_number {index : Nat} {c : Char} (h : c ∈ (number index).toList) :
    c.isDigit = true := by
  rw [toList_number] at h
  rcases List.mem_append.mp h with hzero | hdigit
  · rw [List.eq_of_mem_replicate hzero]
    rfl
  · exact Nat.isDigit_of_mem_toDigits (by decide) (by decide) hdigit

/-- The value of the digits is the number, with or without zeros in front. -/
theorem number_injective : Function.Injective number := by
  intro i j h
  have hvalue : ∀ index, Nat.ofDigitChars 10 (number index).toList 0 = index := by
    intro index
    rw [toList_number, Nat.ofDigitChars_append, Nat.ofDigitChars_replicate_zero, Nat.mul_zero,
      Nat.ofDigitChars_ten_toDigits]
  rw [← hvalue i, h, hvalue j]

theorem number_ne_empty (index : Nat) : number index ≠ "" := by
  intro h
  have hdigits : Nat.toDigits 10 index = [] := by
    have hlist := congrArg String.toList h
    rw [toList_number] at hlist
    exact (List.append_eq_nil_iff.mp hlist).2
  exact Nat.toDigits_ne_nil hdigits

theorem isExtension_number (index : Nat) : IsExtension (number index) where
  noDot := fun h => absurd (isDigit_of_mem_number h) (by decide)
  noSlash := fun h => absurd (isDigit_of_mem_number h) (by decide)

theorem lower_number (index : Nat) : Text.lower (number index) = number index := by
  have hlowered : ∀ c ∈ (number index).toList, Text.Lowered c := by
    intro c hc
    have hdigit : c.toNat ≤ 0x39 :=
      (Char.isDigit_iff_toNat.mp (isDigit_of_mem_number hc)).2
    have hascii : c.toNat < 0x80 := by omega
    have hcapital : ¬ (0x41 ≤ c.toNat ∧ c.toNat ≤ 0x5A) := by omega
    refine ⟨?_, by omega, by omega⟩
    rw [Text.lowerChar]
    simp only [if_pos hascii, if_neg hcapital]
  rw [Text.lower, Text.lowerFrom_of_lowered hlowered, String.ofList_toList]

theorem texturePath_some (naming : Naming) (identifier : String) (index : Nat) :
    naming.texturePath identifier (some index) =
      .ok (identifier ++ "." ++ number index ++ Setting.display naming.textureSuffix) := by
  simp only [texturePath, number, ← String.append_assoc]

/-- Images that are numbered have different paths, whatever the suffix. -/
theorem nodup_texturePath (naming : Naming) (identifier : String) {frames : List (Option Nat)}
    (h : Step.Numbered frames) : (frames.map (naming.texturePath identifier)).Nodup := by
  by_cases hnone : none ∈ frames
  · rw [h.single hnone]
    exact List.nodup_singleton _
  · refine h.nodup.map_on fun a ha b hb hpath => ?_
    cases a with
    | none => exact absurd ha hnone
    | some i =>
        cases b with
        | none => exact absurd hb hnone
        | some j =>
            rw [texturePath_some, texturePath_some] at hpath
            have hnumbers := (String.append_left_inj _).mp (Except.ok.inj hpath)
            exact congrArg some (number_injective ((String.append_right_inj _).mp hnumbers))

end Naming

/-! ### Entries with images -/

namespace DispatchTable

/-- No images are drawn for a numbered name. -/
theorem rendererFor?_number (h : EndsInName a) (index : Nat) :
    standard.rendererFor? (a ++ "." ++ Naming.number index) = none := by
  have hkeys : standard.renderers.keys.all (fun key => key.toList.all fun c => !c.isDigit) =
      true := by
    decide
  rw [rendererFor?, Entry.extension,
    Entry.splitExtension_append h (Naming.isExtension_number index), Naming.lower_number,
    OrderedMap.find?_eq_none_iff]
  intro hmem
  have hall := List.all_eq_true.mp hkeys _ hmem
  obtain ⟨c, hc⟩ := List.exists_mem_of_ne_nil (Naming.number index).toList
    (by simpa using Naming.number_ne_empty index)
  have hdigit := List.all_eq_true.mp hall c hc
  rw [Naming.isDigit_of_mem_number hc] at hdigit
  simp at hdigit

end DispatchTable

/-! ### Paths that are made from names -/

namespace Dispatcher

/-- A path that a text, a document or an image of an entry has in a mode. -/
def Derives (d : Dispatcher) (mode : Mode) (identifier path : String) : Prop :=
  (mode.structured = true ∧ d.table.handlerFor identifier ≠ .unsupported ∧
      Step.documentPath d.naming (d.table.handlerFor identifier) identifier = .ok path) ∨
    (mode.texture = true ∧ ∃ renderer frame, d.table.rendererFor? identifier = some renderer ∧
      d.naming.texturePath identifier frame = .ok path)

theorem documentPath_eq_ok {handler : Handler}
    (h : Step.documentPath {} handler a = .ok path) :
    path = a ++ ".txt" ∨ path = a ++ ".json" := by
  cases handler with
  | text => exact Or.inl (Except.ok.inj h).symm
  | structured format => exact Or.inr (Except.ok.inj h).symm
  | unsupported => exact Or.inr (Except.ok.inj h).symm

theorem texturePath_eq_ok {frame : Option Nat} (h : Naming.texturePath {} a frame = .ok path) :
    (frame = none ∧ path = a ++ ".png") ∨
      ∃ index, frame = some index ∧ path = a ++ "." ++ Naming.number index ++ ".png" := by
  cases frame with
  | none => exact Or.inl ⟨rfl, (Except.ok.inj h).symm⟩
  | some index =>
      rw [Naming.texturePath_some] at h
      exact Or.inr ⟨index, rfl, (Except.ok.inj h).symm⟩

/-- Texts with endings of different last letters are different. -/
theorem append_ne_append {ending other : String}
    (h : ending.toList.getLast? ≠ other.toList.getLast?) (hne : ending ≠ "") (hother : other ≠ "") :
    a ++ ending ≠ b ++ other := by
  intro hsame
  have hlists := congrArg (fun text => text.toList.getLast?) hsame
  simp only [String.toList_append] at hlists
  rw [List.getLast?_append_of_ne_nil _ (by simpa using hne),
    List.getLast?_append_of_ne_nil _ (by simpa using hother)] at hlists
  exact h hlists

theorem eq_of_documentPath {handler other : Handler}
    (ha : Step.documentPath {} handler a = .ok path)
    (hb : Step.documentPath {} other b = .ok path) : a = b := by
  have htold : ∀ {a b : String}, a ++ ".txt" ≠ b ++ ".json" :=
    append_ne_append (by decide) (by decide) (by decide)
  rcases documentPath_eq_ok ha with rfl | rfl
  · rcases documentPath_eq_ok hb with h | h
    · exact (String.append_left_inj _).mp h
    · exact absurd h htold
  · rcases documentPath_eq_ok hb with h | h
    · exact absurd h.symm htold
    · exact (String.append_left_inj _).mp h

/-- The path of an image tells its entry and its number. -/
theorem eq_of_texturePath {frame other : Option Nat} {renderer drawn : Renderer}
    (hnamea : EndsInName a) (hnameb : EndsInName b)
    (hrenderera : DispatchTable.standard.rendererFor? a = some renderer)
    (hrendererb : DispatchTable.standard.rendererFor? b = some drawn)
    (ha : Naming.texturePath {} a frame = .ok path)
    (hb : Naming.texturePath {} b other = .ok path) : a = b ∧ frame = other := by
  have hmixed : ∀ {a b : String} {renderer : Renderer} {index : Nat}, EndsInName b →
      DispatchTable.standard.rendererFor? a = some renderer →
        a ++ ".png" ≠ b ++ "." ++ Naming.number index ++ ".png" := by
    intro a b renderer index hname hrenderer h
    rw [(String.append_left_inj _).mp h, DispatchTable.rendererFor?_number hname] at hrenderer
    simp at hrenderer
  rcases texturePath_eq_ok ha with ⟨rfl, rfl⟩ | ⟨i, rfl, rfl⟩
  · rcases texturePath_eq_ok hb with ⟨rfl, h⟩ | ⟨j, rfl, h⟩
    · exact ⟨(String.append_left_inj _).mp h, rfl⟩
    · exact absurd h (hmixed hnameb hrenderera)
  · rcases texturePath_eq_ok hb with ⟨rfl, h⟩ | ⟨j, rfl, h⟩
    · exact absurd h.symm (hmixed hnamea hrendererb)
    · have hnumbered := (String.append_left_inj _).mp h
      have hsplit := Entry.splitExtension_append hnamea (Naming.isExtension_number i)
      rw [hnumbered, Entry.splitExtension_append hnameb (Naming.isExtension_number j),
        Naming.lower_number, Naming.lower_number] at hsplit
      obtain ⟨hname, hnumber⟩ := Prod.mk.inj hsplit
      exact ⟨hname.symm, congrArg some (Naming.number_injective hnumber.symm)⟩

theorem documentPath_ne_texturePath {handler : Handler} {frame : Option Nat}
    (ha : Step.documentPath {} handler a = .ok path) :
    Naming.texturePath {} b frame ≠ .ok path := by
  intro hb
  have hletters : ∀ ending ∈ [".txt", ".json"], a ++ ending ≠ path := by
    intro ending hending
    have hletter : ending.toList.getLast? ≠ ".png".toList.getLast? ∧ ending ≠ "" := by
      simp only [List.mem_cons, List.not_mem_nil, or_false] at hending
      rcases hending with rfl | rfl <;> decide
    rcases texturePath_eq_ok hb with ⟨-, rfl⟩ | ⟨index, -, rfl⟩
    · exact append_ne_append hletter.1 hletter.2 (by decide)
    · exact append_ne_append hletter.1 hletter.2 (by decide)
  rcases documentPath_eq_ok ha with h | h
  · exact hletters ".txt" (by simp) h.symm
  · exact hletters ".json" (by simp) h.symm

variable {d : Dispatcher} {mode : Mode}

/-- No two entries derive one path. -/
theorem eq_of_derives (htable : d.table = .standard) (hnaming : d.naming = {})
    (hnamea : EndsInName a) (hnameb : EndsInName b) (ha : d.Derives mode a path)
    (hb : d.Derives mode b path) : a = b := by
  rw [Derives, htable, hnaming] at ha hb
  rcases ha with ⟨-, -, hdocument⟩ | ⟨-, renderer, frame, hrenderer, himage⟩
  · rcases hb with ⟨-, -, hdocument'⟩ | ⟨-, renderer', frame', hrenderer', himage'⟩
    · exact eq_of_documentPath hdocument hdocument'
    · exact absurd himage' (documentPath_ne_texturePath hdocument)
  · rcases hb with ⟨-, -, hdocument'⟩ | ⟨-, renderer', frame', hrenderer', himage'⟩
    · exact absurd himage (documentPath_ne_texturePath hdocument')
    · exact (eq_of_texturePath hnamea hnameb hrenderer hrenderer' himage himage').1

/-- What is derived from a stem of plain paths is a plain path. -/
theorem plain_of_derives (hnaming : d.naming = {}) (hstem : Path.Stem a)
    (h : d.Derives mode a path) : Path.Plain path := by
  rw [Derives, hnaming] at h
  rcases h with ⟨-, -, hdocument⟩ | ⟨-, renderer, frame, -, himage⟩
  · rcases documentPath_eq_ok hdocument with rfl | rfl
    · exact hstem.append (by decide) (by decide) (by decide)
    · exact hstem.append (by decide) (by decide) (by decide)
  · rcases texturePath_eq_ok himage with ⟨-, rfl⟩ | ⟨index, -, rfl⟩
    · exact hstem.append (by decide) (by decide) (by decide)
    · have hslash : '/' ∉ (Naming.number index).toList := (Naming.isExtension_number index).noSlash
      have hbackslash : '\\' ∉ (Naming.number index).toList :=
        fun hmem => absurd (Naming.isDigit_of_mem_number hmem) (by decide)
      rw [String.append_assoc, String.append_assoc]
      refine hstem.append ?_ ?_ ?_
      · simp [hslash]
      · simp [hbackslash]
      · have hending : ".png".length = 4 := rfl
        simp only [String.length_append, hending]
        omega

/-! ### Outputs of one entry -/

variable {entry : Entry} {document images members : List (String × Bytes)}

theorem Arranged.derives (h : d.Arranged entry mode document images members) :
    ∀ w ∈ document ++ images, d.Derives mode entry.identifier w.1 := by
  intro w hw
  rcases List.mem_append.mp hw with hdocument | himage
  · rcases h.document with rfl | ⟨hmode, path, data, hhandler, hpath, rfl⟩
    · simp at hdocument
    · obtain rfl := List.mem_singleton.mp hdocument
      exact Or.inl ⟨hmode, hhandler, hpath⟩
  · rcases h.images with rfl | ⟨hmode, renderer, frames, hrenderer, -, hpaths⟩
    · simp at himage
    · obtain ⟨frame, -, hpath⟩ := exists_of_forall₂ hpaths himage
      exact Or.inr ⟨hmode, renderer, frame, hrenderer, hpath⟩

/-- The document and the images of an entry have different paths. -/
theorem Arranged.nodup_derived (htable : d.table = .standard) (hnaming : d.naming = {})
    (hname : EndsInName entry.identifier) (h : d.Arranged entry mode document images members) :
    ((document ++ images).map Prod.fst).Nodup := by
  have himages : (images.map Prod.fst).Nodup := by
    rcases h.images with rfl | ⟨-, renderer, frames, hrenderer, hnumbered, hpaths⟩
    · exact .nil
    · rw [hnaming] at hpaths
      rw [htable] at hrenderer
      have hnamed : List.Forall₂
          (fun frame path => Naming.texturePath {} entry.identifier frame = .ok path) frames
          (images.map Prod.fst) := List.forall₂_map_right_iff.mpr hpaths
      refine nodup_of_forall₂ hnamed hnumbered.nodup ?_
      intro frame other path hframe hother
      exact (eq_of_texturePath hname hname hrenderer hrenderer hframe hother).2
  rw [List.map_append, List.nodup_append']
  rcases h.document with rfl | ⟨-, path, data, -, hpath, rfl⟩
  · exact ⟨.nil, himages, by simp⟩
  · refine ⟨List.nodup_singleton path, himages, ?_⟩
    rw [List.map_singleton, List.singleton_disjoint]
    intro hmem
    obtain ⟨w, hw, rfl⟩ := List.mem_map.mp hmem
    rcases h.images with rfl | ⟨-, renderer, frames, -, -, hpaths⟩
    · simp at hw
    · obtain ⟨frame, -, hframe⟩ := exists_of_forall₂ hpaths hw
      rw [hnaming] at hpath hframe
      exact documentPath_ne_texturePath hpath hframe

end Dispatcher

end ArchiveExport
