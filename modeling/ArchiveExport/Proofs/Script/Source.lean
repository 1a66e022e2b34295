import ArchiveExport.Proofs.Text.Spelling
import ArchiveExport.Script.Source

/-!
# Reading script files

A script file is read in blocks, and a character may be cut by their ends. Still, whether there is a
fault depends on the octets as a whole: exactly the octets of texts are read to their end, and those
of a byte order mark that the end of the file cuts short.
-/

namespace ArchiveExport.Script

open Text.Utf8 (Spells run)

variable {octets : Bytes}

/-- The beginning of a byte order mark that is cut before its end. -/
def CutMark (bs : Bytes) : Prop := bs <+: mark ∧ bs.length < mark.length

/-- The octets of a script file that can be read: those of a text, or a mark cut short. -/
def IsText (bs : Bytes) : Prop := Spells bs ∨ CutMark bs

theorem CutMark.of_append {rest : Bytes} (h : CutMark (octets ++ rest)) : CutMark octets := by
  obtain ⟨hbegin, hlength⟩ := h
  rw [List.length_append] at hlength
  exact ⟨(List.prefix_append octets rest).trans hbegin, by omega⟩

/-- The blocks of data are the data, cut. -/
theorem flatten_blocks (bs : Bytes) : (blocks bs).flatten = bs := by
  fun_induction blocks bs with
  | case1 bs _ hempty => simpa using hempty
  | case2 bs => simp
  | case3 bs _ ih => rw [List.flatten_cons, ih, List.take_append_drop]

/-! ### Blocks -/

/-- A text in front of which there is a byte order mark is a text. -/
theorem spells_dropMark (octets rest : Bytes) :
    Spells (Text.Charset.dropMark octets ++ rest) ↔ Spells (octets ++ rest) := by
  rw [Text.Charset.dropMark.eq_def]
  split
  next octets =>
    have hmark : 0xEF :: 0xBB :: 0xBF :: octets ++ rest =
        Text.Utf8.encode [Char.ofNat 0xFEFF] ++ (octets ++ rest) := rfl
    rw [hmark, Text.Utf8.spells_encode_append]
  next => rfl

/-- Whether octets spell a text together with what follows is known from those of the last character
that they leave open. -/
theorem spells_append_of_run {cs : List Char} {left : Option Text.Utf8.Partial}
    (h : run 0 none [] octets = .ok (cs, left)) (rest : Bytes) :
    Spells (octets ++ rest) ↔
      Spells ((left.elim [] fun begun => octets.drop begun.position) ++ rest) := by
  obtain ⟨ds, tail, hspelled, -, hleft⟩ :=
    Text.Utf8.exists_of_run_eq_ok (Text.Utf8.behind_none 0) h
  obtain rfl : octets = Text.Utf8.encode ds ++ tail := hspelled
  have htail : (left.elim [] fun begun => (Text.Utf8.encode ds ++ tail).drop begun.position) =
      tail := by
    cases left with
    | none => exact Eq.symm hleft
    | some begun =>
        obtain ⟨hposition, -⟩ := hleft
        rw [List.length_append] at hposition
        exact List.drop_left' (by omega)
  rw [htail, List.append_assoc, Text.Utf8.spells_encode_append]

/-- A block that is read leaves open what decides about the octets behind it, and one that is not
read spells no text with any octets behind it. -/
theorem readBlock_eq (p : Pending) (block : Bytes)
    (hready : ¬ (p.expectsMark = true ∧ CutMark (p.octets ++ block))) (rest : Bytes) :
    match readBlock p block with
    | .error _ => ¬ Spells (p.octets ++ block ++ rest)
    | .ok (_, q) => q.expectsMark = false ∧
        (Spells (p.octets ++ block ++ rest) ↔ Spells (q.octets ++ rest)) := by
  have hwait : ¬ (p.expectsMark = true ∧ (p.octets ++ block).length < mark.length ∧
      (p.octets ++ block).isPrefixOf mark = true) := by
    rintro ⟨hmark, hlength, hbegin⟩
    exact hready ⟨hmark, List.isPrefixOf_iff_prefix.mp hbegin, hlength⟩
  have hdropped : Spells (p.octets ++ block ++ rest) ↔
      Spells ((if p.expectsMark then Text.Charset.dropMark (p.octets ++ block)
        else p.octets ++ block) ++ rest) := by
    split
    · exact (spells_dropMark _ _).symm
    · exact Iff.rfl
  simp only [readBlock, if_neg hwait, hdropped]
  generalize (if p.expectsMark then Text.Charset.dropMark (p.octets ++ block)
    else p.octets ++ block) = octets
  cases hrun : run 0 none [] octets with
  | error fault => exact Text.Utf8.not_spells_append hrun rest
  | ok result =>
      obtain ⟨cs, left⟩ := result
      have hspells := spells_append_of_run hrun rest
      cases left with
      | none => exact ⟨rfl, hspells⟩
      | some begun => exact ⟨rfl, hspells⟩

/-! ### Files -/

/-- Where no mark is expected any more, exactly what spells a text is read. -/
theorem readBlocks_eq_none_iff (bs : List Bytes) (octets : Bytes) :
    (readBlocks ⟨false, octets⟩ bs).2 = none ↔ Spells (octets ++ bs.flatten) := by
  induction bs generalizing octets with
  | nil =>
      rw [readBlocks, endFault, List.flatten_nil, List.append_nil, Text.Utf8.spells_iff_decode,
        Text.Charset.decodeUtf8]
      cases Text.Utf8.decode octets <;> simp [Except.mapError]
  | cons block bs ih =>
      have hblock := readBlock_eq ⟨false, octets⟩ block (by simp) bs.flatten
      rw [List.flatten_cons, ← List.append_assoc, readBlocks]
      cases hread : readBlock ⟨false, octets⟩ block with
      | error fault =>
          rw [hread] at hblock
          simpa using hblock
      | ok result =>
          obtain ⟨cs, ⟨marked, left⟩⟩ := result
          rw [hread] at hblock
          obtain ⟨rfl, hspells⟩ := hblock
          exact (ih left).trans hspells.symm

/-- As long as there is no more than the beginning of a mark, it may be all that there is. -/
theorem readBlocks_marked_eq_none_iff (bs : List Bytes) {octets : Bytes} (h : CutMark octets) :
    (readBlocks ⟨true, octets⟩ bs).2 = none ↔ IsText (octets ++ bs.flatten) := by
  induction bs generalizing octets with
  | nil => simp [readBlocks, endFault, IsText, h]
  | cons block bs ih =>
      rw [List.flatten_cons, ← List.append_assoc, readBlocks]
      -- the reader waits for more as long as all that it has begins a mark
      by_cases hcut : CutMark (octets ++ block)
      · have hread : readBlock ⟨true, octets⟩ block = .ok ([], ⟨true, octets ++ block⟩) := by
          rw [readBlock]
          exact if_pos ⟨rfl, hcut.2, List.isPrefixOf_iff_prefix.mpr hcut.1⟩
        rw [hread]
        exact ih hcut
      · have hblock := readBlock_eq ⟨true, octets⟩ block (fun hwait => hcut hwait.2) bs.flatten
        have htext : IsText (octets ++ block ++ bs.flatten) ↔
            Spells (octets ++ block ++ bs.flatten) :=
          or_iff_left fun hrest => hcut hrest.of_append
        rw [htext]
        cases hread : readBlock ⟨true, octets⟩ block with
        | error fault =>
            rw [hread] at hblock
            simpa using hblock
        | ok result =>
            obtain ⟨cs, ⟨marked, left⟩⟩ := result
            rw [hread] at hblock
            obtain ⟨rfl, hspells⟩ := hblock
            exact (readBlocks_eq_none_iff bs left).trans hspells.symm

/-- A script file is read to its end exactly if it is a text. -/
theorem linesOf_eq_none_iff (bs : Bytes) : (linesOf bs).2 = none ↔ IsText bs := by
  have hfault : (linesOf bs).2 = (readBlocks {} (blocks bs)).2 := by
    rw [linesOf]
    cases hread : (readBlocks {} (blocks bs)).2 <;> simp [hread]
  have hempty : CutMark [] := ⟨List.nil_prefix, by decide⟩
  have hall := readBlocks_marked_eq_none_iff (blocks bs) hempty
  rw [List.nil_append, flatten_blocks] at hall
  rw [hfault]
  exact hall

end ArchiveExport.Script
