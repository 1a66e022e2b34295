import ArchiveExport.Proofs.Export.Dispatched
import ArchiveExport.Proofs.Export.Sink
import ArchiveExport.Proofs.Export.Writes

/-!
# Files that are written

Writes below one output folder lead to places below its root. Every place holds what was last
written there, a file that no write leads to stays as it is, and no folder is lost.
-/

namespace ArchiveExport

/-- The log file is all that a disk lacks without it. -/
theorem Disk.node?_withoutLog (d : Disk) {log : Option Path} {place : Path}
    (h : log ≠ some place) : (d.withoutLog log).node? place = d.node? place := by
  cases log with
  | none => rfl
  | some noted =>
      have hne : place ≠ noted := fun hsame => h (by rw [hsame])
      rw [withoutLog, node?, node?, remove]
      simp [OrderedMap.find?_erase, hne]

theorem Site.Noted.node? {log : Option Path} {site noted : Site} {place : Path}
    (h : site.Noted log noted) (hlog : log ≠ some place) :
    noted.disk.node? place = site.disk.node? place := by
  rw [← Disk.node?_withoutLog noted.disk hlog, h.disk, Disk.node?_withoutLog site.disk hlog]

namespace Site

/-- The second site is the first one after some writes; the log file may have changed. -/
structure Wrote (log : Option Path) (writes : List (String × Bytes)) (site last : Site) :
    Prop where
  root : last.sink.root = site.sink.root
  written : last.sink.written = site.sink.written ++ writes.map Prod.fst
  others : ∀ place, log ≠ some place → (∀ w ∈ writes, site.sink.place w.1 ≠ place) →
    last.disk.file? place = site.disk.file? place
  folders : ∀ place, log ≠ some place → site.disk.node? place = some .folder →
    last.disk.node? place = some .folder
  resolved : ∀ w ∈ writes, ∃ target, site.sink.resolve w.1 = .ok target
  reached : ∀ w ∈ writes, ∀ target, site.sink.resolve w.1 = .ok target →
    (∀ above, above <+: target.place → log ≠ some above) →
      last.disk.locate [] target.text = .ok target.place
  held : (writes.map fun w => site.sink.place w.1).Nodup → ∀ w ∈ writes,
    log ≠ some (site.sink.place w.1) → last.disk.file? (site.sink.place w.1) = some w.2

namespace Wrote

variable {log : Option Path} {writes later : List (String × Bytes)} {site middle last : Site}

theorem place_eq (h : site.Wrote log writes middle) (path : String) :
    middle.sink.place path = site.sink.place path := by
  rw [Sink.place_eq_follow, Sink.place_eq_follow, h.root]

theorem resolve_eq (h : site.Wrote log writes middle) (path : String) :
    middle.sink.resolve path = site.sink.resolve path := by
  rw [Sink.resolve, Sink.resolve, h.root]

/-- Nothing is written, and folders may be added. -/
theorem of_grows (hsink : last.sink = site.sink) (hgrows : site.disk.Grows last.disk) :
    site.Wrote log [] last where
  root := by rw [hsink]
  written := by rw [hsink]; simp
  others := fun place _ _ => hgrows.file? place
  folders := fun place _ hfolder => hgrows.keeps place hfolder
  resolved := by simp
  reached := by simp
  held := by simp

theorem refl (log : Option Path) (site : Site) : site.Wrote log [] site :=
  of_grows rfl (.refl _)

/-- Taking note changes nothing but the log file. -/
theorem of_noted (h : site.Noted log last) : site.Wrote log [] last where
  root := by rw [h.sink]
  written := by rw [h.sink]; simp
  others := fun place hlog _ => by rw [Disk.file?, Disk.file?, h.node? hlog]
  folders := fun place hlog hfolder => by rw [h.node? hlog, hfolder]
  resolved := by simp
  reached := by simp
  held := by simp

theorem trans (hroot : site.sink.root.Normal) (h : site.Wrote log writes middle)
    (h' : middle.Wrote log later last) : site.Wrote log (writes ++ later) last where
  root := h'.root.trans h.root
  written := by rw [h'.written, h.written, List.map_append, List.append_assoc]
  others := by
    intro place hlog hplace
    have hfirst := h.others place hlog fun w hw => hplace w (List.mem_append_left _ hw)
    have hrest := h'.others place hlog fun w hw => by
      rw [h.place_eq]
      exact hplace w (List.mem_append_right _ hw)
    exact hrest.trans hfirst
  folders := fun place hlog hfolder => h'.folders place hlog (h.folders place hlog hfolder)
  resolved := by
    intro w hw
    rcases List.mem_append.mp hw with hfirst | hlater
    · exact h.resolved w hfirst
    · obtain ⟨target, htarget⟩ := h'.resolved w hlater
      rw [h.resolve_eq] at htarget
      exact ⟨target, htarget⟩
  reached := by
    intro w hw target htarget hlog
    rcases List.mem_append.mp hw with hfirst | hlater
    · obtain ⟨hnormal, -, hne⟩ := Sink.normal_of_resolve hroot htarget
      exact Disk.locate_text_of_folders hnormal hne (h.reached w hfirst target htarget hlog)
        (fun above habove => h'.folders above (hlog above habove)) []
    · rw [← h.resolve_eq] at htarget
      exact h'.reached w hlater target htarget hlog
  held := by
    intro hnodup w hw hlog
    rw [List.map_append, List.nodup_append'] at hnodup
    obtain ⟨hfirsts, hlaters, hdisjoint⟩ := hnodup
    rcases List.mem_append.mp hw with hfirst | hlater
    · have hkept := h'.others (site.sink.place w.1) hlog fun other hother hsame => by
        rw [h.place_eq] at hsame
        exact hdisjoint (List.mem_map_of_mem hfirst)
          (hsame ▸ List.mem_map_of_mem (f := fun w => site.sink.place w.1) hother)
      rw [hkept]
      exact h.held hfirsts w hfirst hlog
    · have hplaces : (later.map fun w => middle.sink.place w.1).Nodup := by
        simpa only [h.place_eq] using hlaters
      have hheld := h'.held hplaces w hlater
      rw [h.place_eq] at hheld
      exact hheld hlog

theorem of_put {target : AbsolutePath} {grown : Disk} {path : String} {data : Bytes}
    (log : Option Path) (hgrows : site.disk.Grows grown)
    (hresolve : site.sink.resolve path = .ok target) (hnormal : target.Normal)
    (hplace : target.place = site.sink.place path) (hne : target.place ≠ [])
    (hlocate : grown.locate [] target.text = .ok target.place)
    (hfolder : grown.node? target.place ≠ some .folder) (hroot : last.sink.root = site.sink.root)
    (hwritten : last.sink.written = site.sink.written ++ [path])
    (hdisk : last.disk = grown.put target.place (.file data)) :
    site.Wrote log [(path, data)] last where
  root := hroot
  written := hwritten
  others := by
    intro place _ hother
    have hplace' : place ≠ target.place := by
      rintro rfl
      exact hother (path, data) List.mem_cons_self hplace.symm
    rw [← hgrows.file? place, hdisk, Disk.file?, Disk.file?, Disk.node?_put hne,
      if_neg hplace']
  folders := by
    intro place _ hthere
    have hkept := hgrows.keeps place hthere
    have hplace' : place ≠ target.place := by
      rintro rfl
      exact hfolder hkept
    rw [hdisk, Disk.node?_put hne, if_neg hplace', hkept]
  resolved := by
    intro w hw
    obtain rfl := List.mem_singleton.mp hw
    exact ⟨target, hresolve⟩
  reached := by
    intro w hw found hfound _
    obtain rfl := List.mem_singleton.mp hw
    rw [hresolve] at hfound
    obtain rfl := Except.ok.inj hfound
    refine Disk.locate_text_of_folders hnormal hne hlocate (fun above _ hthere => ?_) []
    have hplace' : above ≠ target.place := by
      rintro rfl
      exact hfolder hthere
    rw [hdisk, Disk.node?_put hne, if_neg hplace', hthere]
  held := by
    intro _ w hw _
    obtain rfl := List.mem_singleton.mp hw
    rw [← hplace, hdisk, Disk.file?, Disk.node?_put hne, if_pos rfl]

/-- A write adds a file if it is accepted. -/
theorem of_write (hroot : site.sink.root.Normal) (log : Option Path) (path : String)
    (data : Bytes) {sink : Sink} {disk : Disk} {answer : Except Sink.Fault AbsolutePath}
    (hwrite : site.sink.write site.disk path data = (sink, disk, answer)) :
    site.Wrote log (if answer.isOk then [(path, data)] else []) { site with sink, disk } := by
  obtain ⟨grown, hgrows, hcases⟩ := Sink.write_cases hroot site.disk path data
  rcases hcases with ⟨fault, hfault⟩ |
    ⟨target, hresolve, hnormal, hplace, hne, hlocate, hfolder, haccepted⟩
  · obtain ⟨rfl, rfl, rfl⟩ : sink = site.sink ∧ disk = grown ∧ answer = .error fault := by
      simpa using hwrite.symm.trans hfault
    exact of_grows rfl hgrows
  · obtain ⟨rfl, rfl, rfl⟩ : sink = { site.sink with written := site.sink.written ++ [path] } ∧
        disk = grown.put target.place (.file data) ∧ answer = .ok target := by
      simpa using hwrite.symm.trans haccepted
    exact of_put log hgrows hresolve hnormal hplace hne hlocate hfolder rfl rfl rfl

end Wrote

end Site

/-- A job writes what it gets written. -/
theorem Job.wrote_run {α : Type} (job : Job α) {site : Site} (hroot : site.sink.root.Normal)
    (log : Option Path) : site.Wrote log (job.writes site) (job.run site).2 := by
  induction job generalizing site with
  | done value => exact .refl log site
  | read key next ih =>
      rcases hread : site.archive.read site.disk key with ⟨answer, archive⟩
      have hread' : site.Wrote log [] { site with archive } := .of_grows rfl (.refl _)
      have hroot' : ({ site with archive } : Site).sink.root.Normal := hroot
      simp only [writes, run, hread]
      exact hread'.trans hroot (ih answer hroot')
  | contains key next ih => exact ih _ hroot
  | write path data next ih =>
      rcases hwrite : site.sink.write site.disk path data with ⟨sink, disk, answer⟩
      have hwrote := Site.Wrote.of_write hroot log path data hwrite
      have hroot' : ({ site with sink, disk } : Site).sink.root.Normal := hwrote.root ▸ hroot
      simp only [writes, run, hwrite]
      exact hwrote.trans hroot (ih _ hroot')
  | print channel line next ih =>
      have hprinted : site.Wrote log []
          { site with console := site.console.printLine channel line } := .of_grows rfl (.refl _)
      exact hprinted.trans hroot (ih hroot)

end ArchiveExport
