import ArchiveExport.Export.Sink
import ArchiveExport.Proofs.Archive.Key
import ArchiveExport.Proofs.Disk.Access

/-!
# Where outputs go

An output that is accepted is a file below the root of the output folder, at the place where its
path leads. Nothing else on the disk changes but for folders that are added.
-/

namespace ArchiveExport.Sink

variable {sink : Sink} {path : String} {target : AbsolutePath}

/-- Where a path leads from the root, below it or not. -/
@[irreducible]
def place (sink : Sink) (path : String) : Path := Path.follow sink.root.place (names path)

theorem place_eq_follow (sink : Sink) (path : String) :
    sink.place path = Path.follow sink.root.place (names path) := by
  unfold place
  rfl

theorem not_mem_of_mem_names {name : String} (h : name ∈ names path) : '/' ∉ name.toList := by
  rw [names] at h
  exact Text.not_mem_of_mem_split h

theorem resolve_eq_ok_iff :
    sink.resolve path = .ok target ↔
      sink.root.place ≠ [] ∧ sink.root.place <+: sink.place path ∧
        sink.place path ≠ sink.root.place ∧
        target.lead = sink.root.lead ∧ target.place = sink.place path := by
  have htarget : ∀ {lead : String} {place : Path},
      (⟨lead, place⟩ : AbsolutePath) = target ↔ target.lead = lead ∧ target.place = place := by
    intro lead place
    cases target
    simp [eq_comm]
  unfold resolve
  simp only [← place_eq_follow]
  by_cases hroot : sink.place path = sink.root.place
  · simp [hroot]
  · rw [if_neg hroot]
    by_cases hbelow : sink.root.place ≠ [] ∧ sink.root.place.isPrefixOf (sink.place path) = true
    · rw [if_pos hbelow, Except.ok.injEq, htarget]
      have hprefix := List.isPrefixOf_iff_prefix.mp hbelow.2
      exact ⟨fun h => ⟨hbelow.1, hprefix, hroot, h⟩, fun h => h.2.2.2⟩
    · rw [if_neg hbelow]
      constructor
      · intro h
        simp at h
      · rintro ⟨hne, hprefix, -⟩
        exact absurd ⟨hne, List.isPrefixOf_iff_prefix.mpr hprefix⟩ hbelow

theorem resolve_of_place_eq {other : String} (h : sink.resolve path = .ok target)
    (hsame : sink.place path = sink.place other) : sink.resolve other = .ok target := by
  rw [resolve_eq_ok_iff] at h ⊢
  rwa [← hsame]

/-- Only proper names lead to an output below a normalized root. -/
theorem normal_of_resolve (hroot : sink.root.Normal) (h : sink.resolve path = .ok target) :
    target.Normal ∧ target.place = sink.place path ∧ target.place ≠ [] := by
  obtain ⟨hne, hprefix, -, hlead, hplace⟩ := resolve_eq_ok_iff.mp h
  have hnames : ∀ name ∈ sink.place path, Path.IsName name := by
    rw [place_eq_follow]
    exact Path.isName_follow hroot.isName fun name hname => not_mem_of_mem_names hname
  refine ⟨⟨hlead ▸ hroot.lead, hplace ▸ hnames⟩, hplace, fun hempty => hne ?_⟩
  rw [hplace] at hempty
  exact List.prefix_nil.mp (hempty ▸ hprefix)

/-- A write is refused, or it puts a file at the place of its path; either way folders may be
added. -/
theorem write_cases (hroot : sink.root.Normal) (disk : Disk) (path : String) (data : Bytes) :
    ∃ grown, disk.Grows grown ∧
      ((∃ fault, sink.write disk path data = (sink, grown, .error fault)) ∨
        ∃ target, sink.resolve path = .ok target ∧ target.Normal ∧
          target.place = sink.place path ∧ target.place ≠ [] ∧
          grown.locate [] target.text = .ok target.place ∧
          grown.node? target.place ≠ some .folder ∧
          sink.write disk path data =
            ({ sink with written := sink.written ++ [path] },
              grown.put target.place (.file data), .ok target)) := by
  cases hresolve : sink.resolve path with
  | error fault => exact ⟨disk, .refl disk, Or.inl ⟨fault, write_of_resolve_eq_error hresolve _ _⟩⟩
  | ok target =>
      obtain ⟨hnormal, hplace, hne⟩ := normal_of_resolve hroot hresolve
      have hgrows := disk.grows_makeFolders [] (Path.folder target.text)
      rcases hfolders : disk.makeFolders [] (Path.folder target.text) with ⟨grown, fault | _⟩
      · rw [hfolders] at hgrows
        refine ⟨grown, hgrows, Or.inl ⟨.disk fault, ?_⟩⟩
        rw [write_of_resolve_eq_ok hresolve, hfolders]
      · rw [hfolders] at hgrows
        refine ⟨grown, hgrows, ?_⟩
        cases hwritten : grown.write [] target.text data with
        | error fault =>
            exact Or.inl ⟨.disk fault,
              by simp [write_of_resolve_eq_ok hresolve, hfolders, hwritten]⟩
        | ok last =>
            obtain ⟨found, hlocate, hfolder, rfl⟩ := Disk.write_eq_ok hwritten
            obtain rfl := Disk.eq_place_of_locate_text hnormal hne hlocate
            exact Or.inr ⟨target, rfl, hnormal, hplace, hne, hlocate, hfolder,
              by simp [write_of_resolve_eq_ok hresolve, hfolders, hwritten]⟩

/-! ### Plain paths -/

theorem place_of_noBackslash (h : '\\' ∉ path.toList) :
    sink.place path = Path.follow sink.root.place (Text.split '/' path) := by
  rw [place_eq_follow, names, Text.replace_of_not_mem h, Path.follow_split_dropLeading]

theorem place_of_plain (h : Path.Plain path) :
    sink.place path = sink.root.place ++ Text.split '/' path := by
  rw [place_of_noBackslash h.noBackslash, Path.follow_of_isName h.isName]

/-- Different plain paths lead to different places. -/
theorem eq_of_place_eq {other : String} (h : Path.Plain path) (hother : Path.Plain other)
    (hplace : sink.place path = sink.place other) : path = other := by
  rw [place_of_plain h, place_of_plain hother] at hplace
  exact Text.split_inj (List.append_cancel_left hplace)

end ArchiveExport.Sink
