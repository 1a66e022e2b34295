import ArchiveExport.Proofs.Disk.Writing
import ArchiveExport.Proofs.Export.Sink

/-!
# Outputs in each other's way

An output can be in the way of another: as a file where a folder is needed, or as a folder where a
file is to go. Which outputs are written is decided the first time. Once their folders and files are
there, each of them is written or refused as before.
-/

namespace ArchiveExport

namespace Sink

variable {sink : Sink} {path : String} {target : AbsolutePath} {data : Bytes}

/-- An accepted path leads to a name in a folder at the root or below it. -/
theorem exists_last_of_resolve (h : sink.resolve path = .ok target) :
    ∃ front name, target = ⟨sink.root.lead, front ++ [name]⟩ ∧
      sink.place path = front ++ [name] ∧ sink.root.place <+: front ∧ front ≠ [] := by
  obtain ⟨hne, hpre, hroot, hlead, hplace⟩ := resolve_eq_ok_iff.mp h
  obtain ⟨lead, place⟩ := target
  obtain rfl : lead = sink.root.lead := hlead
  obtain rfl : place = sink.place path := hplace
  rcases List.eq_nil_or_concat' (sink.place path) with hempty | ⟨front, name, hlast⟩
  · rw [hempty, List.prefix_nil] at hpre
    exact absurd hpre hne
  · rw [hlast] at hpre hroot
    have hfront := (List.prefix_concat_iff.mp hpre).resolve_left hroot.symm
    refine ⟨front, name, by rw [hlast], hlast, hfront, ?_⟩
    rintro rfl
    exact hne (List.prefix_nil.mp hfront)

/-- What becomes of an output whose path is accepted. -/
theorem write_eq_of_resolve (hroot : sink.root.Normal) {front : Path} {name : String}
    (h : sink.resolve path = .ok ⟨sink.root.lead, front ++ [name]⟩) (hne : front ≠ [])
    (disk : Disk) (data : Bytes) :
    ∃ after, disk.Written sink.root.lead front name data after ∧
      sink.write disk path data =
        match disk.writeFault? sink.root.lead front name with
        | some fault => (sink, after, .error (.disk fault))
        | none => ({ sink with written := sink.written ++ [path] }, after,
            .ok ⟨sink.root.lead, front ++ [name]⟩) := by
  obtain ⟨hnormal, -, -⟩ := normal_of_resolve hroot h
  obtain ⟨made, hmade, hfolders⟩ := Disk.makeFolders_text hnormal.dropLast hne disk
  simp only [write_of_resolve_eq_ok h, AbsolutePath.folder_text hnormal, hfolders]
  cases hanswer : disk.madeAnswer sink.root.lead front with
  | error fault =>
      have hfault : disk.writeFault? sink.root.lead front name = some fault := by
        rw [Disk.writeFault?, hanswer]
      exact ⟨made, ⟨made, hmade, by rw [hfault]⟩, by rw [hfault]⟩
  | ok _ =>
      obtain ⟨hway, -⟩ := Disk.madeAnswer_eq_ok_iff.mp hanswer
      obtain ⟨hthere, hfront⟩ := hmade.folders hway
      have hhindrance : made.hindrance? sink.root.lead front name =
          disk.hindrance? sink.root.lead front name :=
        Disk.hindrance?_congr (by rw [hmade.grows.file?]) _ _
      have hfolder : made.hasFolder (front ++ [name]) = disk.hasFolder (front ++ [name]) := by
        rw [Disk.hasFolder, Disk.hasFolder, hmade.concat_eq]
      have hlast := Disk.write_concat hnormal hthere hfront (Disk.size_le_of_wayFault? hway) data
      rw [hhindrance, hfolder] at hlast
      simp only [hlast]
      cases hnext : disk.hindrance? sink.root.lead front name with
      | some fault =>
          have hfault : disk.writeFault? sink.root.lead front name = some fault := by
            rw [Disk.writeFault?, hanswer, hnext, Option.some_or]
          exact ⟨made, ⟨made, hmade, by rw [hfault]⟩, by rw [hfault]⟩
      | none =>
          cases hthere : disk.hasFolder (front ++ [name]) with
          | true =>
              have hfault : disk.writeFault? sink.root.lead front name = some (.refused .isFolder
                  (AbsolutePath.mk sink.root.lead (front ++ [name])).text) := by
                rw [Disk.writeFault?, hanswer, hnext, Option.none_or, hthere, if_pos rfl]
              exact ⟨made, ⟨made, hmade, by rw [hfault]⟩, by rw [hfault]; rfl⟩
          | false =>
              have hfault : disk.writeFault? sink.root.lead front name = none := by
                rw [Disk.writeFault?, hanswer, hnext, Option.none_or, hthere]
                rfl
              exact ⟨_, ⟨made, hmade, by rw [hfault]⟩, by rw [hfault]; rfl⟩

theorem written_of_resolve (hroot : sink.root.Normal) {front : Path} {name : String}
    (h : sink.resolve path = .ok ⟨sink.root.lead, front ++ [name]⟩) (hne : front ≠ [])
    (disk : Disk) (data : Bytes) :
    disk.Written sink.root.lead front name data (sink.write disk path data).2.1 ∧
      (sink.write disk path data).2.2 =
        match disk.writeFault? sink.root.lead front name with
        | some fault => .error (.disk fault)
        | none => .ok ⟨sink.root.lead, front ++ [name]⟩ := by
  obtain ⟨after, hafter, hwrite⟩ := write_eq_of_resolve hroot h hne disk data
  rw [hwrite]
  cases disk.writeFault? sink.root.lead front name with
  | some fault => exact ⟨hafter, rfl⟩
  | none => exact ⟨hafter, rfl⟩

/-- A write keeps files and folders. Where it does not lead, it changes nothing but that it makes
folders at the root and above it, if they are missing. -/
theorem write_keeps (hroot : sink.root.Normal) (disk : Disk) (path : String) (data : Bytes) :
    disk.Upholds sink.root.place (sink.write disk path data).2.1 ∧
      ∀ other, ¬ sink.root.place <+: other →
        (other <+: sink.root.place → disk.node? other ≠ none) →
          (sink.write disk path data).2.1.node? other = disk.node? other := by
  cases hresolve : sink.resolve path with
  | error fault =>
      rw [write_of_resolve_eq_error hresolve]
      exact ⟨.refl _ disk, fun other _ _ => rfl⟩
  | ok target =>
      obtain ⟨front, name, rfl, -, hbelow, hne⟩ := exists_last_of_resolve hresolve
      obtain ⟨hafter, -⟩ := written_of_resolve hroot hresolve hne disk data
      refine ⟨hafter.upholds _, fun other hnot hthere => ?_⟩
      have hlast : other ≠ front ++ [name] := by
        rintro rfl
        exact hnot (hbelow.trans (List.prefix_append _ _))
      rw [hafter.node?_eq hlast, if_neg]
      rintro ⟨habove, -, hnone⟩
      rcases List.prefix_or_prefix_of_prefix habove hbelow with hup | hdown
      · exact hthere hup hnone
      · exact hnot hdown

/-- Once its folders and files are there, an output is written or refused as it was the first time,
and nothing but its file changes. -/
theorem write_again {again : Sink} (hroot : sink.root.Normal) (hsame : again.root = sink.root)
    {disk later : Disk} (path : String) (data : Bytes)
    (hup : (sink.write disk path data).2.1.Upholds sink.root.place later) :
    (again.write later path data).2.2 = (sink.write disk path data).2.2 ∧
      (∀ other, (again.write later path data).2.1.node? other =
        if (sink.write disk path data).2.2.isOk ∧ other = sink.place path then some (.file data)
        else later.node? other) ∧
      ∀ log, later.SameShape log (again.write later path data).2.1 := by
  have hresolve' : again.resolve path = sink.resolve path := by
    rw [resolve, resolve, hsame]
  cases hresolve : sink.resolve path with
  | error fault =>
      rw [write_of_resolve_eq_error hresolve,
        write_of_resolve_eq_error (hresolve'.trans hresolve)]
      exact ⟨rfl, fun other => by simp [Except.isOk, Except.toBool], fun log => .refl log later⟩
  | ok target =>
      obtain ⟨front, name, rfl, hplace, hbelow, hne⟩ := exists_last_of_resolve hresolve
      obtain ⟨hafter, hfirst⟩ := written_of_resolve hroot hresolve hne disk data
      have hroot' : again.root.Normal := hsame ▸ hroot
      have hresolved : again.resolve path = .ok ⟨again.root.lead, front ++ [name]⟩ := by
        rw [hresolve', hresolve, hsame]
      obtain ⟨hleft, hagain⟩ := written_of_resolve hroot' hresolved hne later data
      rw [hsame] at hleft hagain
      have hnear : ∀ above, above <+: front ++ [name] →
          above <+: sink.root.place ∨ sink.root.place <+: above := fun above habove =>
        List.prefix_or_prefix_of_prefix habove (hbelow.trans (List.prefix_append _ _))
      obtain ⟨hfault, hnodes⟩ := hafter.again hup hnear hleft
      have hok : (sink.write disk path data).2.2.isOk = true ↔
          disk.writeFault? sink.root.lead front name = none := by
        rw [hfirst]
        cases disk.writeFault? sink.root.lead front name <;> simp [Except.isOk, Except.toBool]
      refine ⟨?_, ?_, ?_⟩
      · rw [hagain, hfirst, hfault]
      · intro other
        rw [hnodes other, hplace]
        simp only [hok]
      · intro log other _
        rw [hnodes other]
        split
        next hlast =>
          obtain ⟨hfree, rfl⟩ := hlast
          have hwritten :
              ((sink.write disk path data).2.1.file? (front ++ [name])).isSome := by
            simp [Disk.file?, hafter.node?_last, hfree]
          have hthere := (hup _ (hnear _ List.prefix_rfl)).2 hwritten
          refine Or.inr ⟨hthere, ?_⟩
          simp [Disk.file?, hnodes, hfree]
        next => exact Or.inl rfl

end Sink

end ArchiveExport
