import ArchiveExport.Export.Exporter
import ArchiveExport.Proofs.Disk.Logged
import ArchiveExport.Proofs.Export.Script

/-!
# Sessions that differ in their log file

What a session tells goes to the log file. As long as the archive does not read that file, nothing
else depends on it: two sessions that differ in what they have told export the same entries to the
same places with the same outcomes, and still differ in what they have told alone.
-/

namespace ArchiveExport

variable {log : Option Path}

/-! ### Archives and output folders -/

/-- An archive reads the file at a place. The files of an opened store are in memory. -/
def Archive.Reads : Archive → Path → Prop
  | .grf _, _ => False
  | .folder files, place => ∃ key file, files.files.find? key = some file ∧
      Path.follow [] (Text.split '/' file.text) = place

theorem Archive.reads_read (a : Archive) (disk : Disk) (key : String) (place : Path) :
    (a.read disk key).2.Reads place ↔ a.Reads place := by
  cases a with
  | grf store => exact Iff.rfl
  | folder files => exact Iff.rfl

namespace Disk.AlikeBut

variable {d e : Disk}

/-- A file of the archive is not the log file, wherever its text leads. -/
theorem log_ne_of_locate {files : FolderArchive} {key : String} {file : LooseFile} {place : Path}
    (hlog : ∀ noted ∈ log, ¬ (Archive.folder files).Reads noted)
    (hfile : files.files.find? key = some file) (hlocate : d.locate [] file.text = .ok place) :
    log ≠ some place := by
  intro hsame
  obtain ⟨-, -, -, hwalk⟩ := locate_eq_ok_iff.mp hlocate
  rw [ite_self] at hwalk
  exact hlog place hsame ⟨key, file, hfile, (walk_eq_ok_iff.mp hwalk).1.symm⟩

theorem archive_read_eq (h : d.AlikeBut log e) {a : Archive}
    (hlog : ∀ noted ∈ log, ¬ a.Reads noted) (key : String) : a.read e key = a.read d key := by
  cases a with
  | grf store => rfl
  | folder files =>
      simp only [Archive.read, FolderArchive.read]
      cases hfile : files.file? key with
      | none => rfl
      | some file =>
          simp only [h.read_eq fun place hplace => log_ne_of_locate hlog hfile hplace]

theorem archive_contains_eq (h : d.AlikeBut log e) {a : Archive}
    (hlog : ∀ noted ∈ log, ¬ a.Reads noted) (key : String) :
    a.contains e key = a.contains d key := by
  cases a with
  | grf store => rfl
  | folder files =>
      simp only [Archive.contains, Archive.info?, FolderArchive.size?]
      cases hfile : files.file? key with
      | none => rfl
      | some file =>
          simp only [h.look_eq fun place hplace => log_ne_of_locate hlog hfile hplace]

theorem sink_write (h : d.AlikeBut log e) (sink : Sink) (path : String) (data : Bytes) :
    (sink.write e path data).1 = (sink.write d path data).1 ∧
      (sink.write d path data).2.1.AlikeBut log (sink.write e path data).2.1 ∧
        (sink.write e path data).2.2 = (sink.write d path data).2.2 := by
  rw [Sink.write, Sink.write]
  cases sink.resolve path with
  | error fault => exact ⟨rfl, h, rfl⟩
  | ok target =>
      obtain ⟨hanswer, hmade⟩ := h.answersAlike_makeFolders [] (Path.folder target.text)
      simp only
      generalize d.makeFolders [] (Path.folder target.text) = above at hanswer hmade
      generalize e.makeFolders [] (Path.folder target.text) = above' at hanswer hmade
      obtain ⟨made, answer⟩ := above
      obtain ⟨made', answer'⟩ := above'
      obtain rfl : answer' = answer := hanswer
      cases answer' with
      | error fault => exact ⟨rfl, hmade, rfl⟩
      | ok _ =>
          have hwritten := AlikeBut.endAlike_write hmade [] target.text data
          simp only at hwritten ⊢
          generalize made.write [] target.text data = written at hwritten
          generalize made'.write [] target.text data = written' at hwritten
          cases hwritten with
          | error fault => exact ⟨rfl, hmade, rfl⟩
          | ok hput => exact ⟨rfl, hput, rfl⟩

end Disk.AlikeBut

/-! ### Jobs -/

/-- Two sites are the same but for the console and a log file that the archive does not read. -/
structure Site.AlikeBut (log : Option Path) (site other : Site) : Prop where
  archive : other.archive = site.archive
  sink : other.sink = site.sink
  disk : site.disk.AlikeBut log other.disk
  unread : ∀ noted ∈ log, ¬ site.archive.Reads noted

/-- A job comes to the same at both sites. -/
theorem Job.run_alikeBut {α : Type} (job : Job α) {site other : Site}
    (h : site.AlikeBut log other) :
    (job.run other).1 = (job.run site).1 ∧ (job.run site).2.AlikeBut log (job.run other).2 := by
  induction job generalizing site other with
  | done value => exact ⟨rfl, h⟩
  | read key next ih =>
      have hread : other.archive.read other.disk key = site.archive.read site.disk key := by
        rw [h.archive]
        exact h.disk.archive_read_eq h.unread key
      have hunread : ∀ noted ∈ log, ¬ (site.archive.read site.disk key).2.Reads noted :=
        fun noted hnoted hreads => h.unread noted hnoted ((Archive.reads_read _ _ _ _).mp hreads)
      simp only [run, hread]
      exact ih _ ⟨rfl, h.sink, h.disk, hunread⟩
  | contains key next ih =>
      have hfound : other.archive.contains other.disk key =
          site.archive.contains site.disk key := by
        rw [h.archive]
        exact h.disk.archive_contains_eq h.unread key
      simp only [run, hfound]
      exact ih _ h
  | write path data next ih =>
      have hwritten := h.disk.sink_write site.sink path data
      rcases hwrite : site.sink.write site.disk path data with ⟨sink, disk, answer⟩
      rcases hwrite' : site.sink.write other.disk path data with ⟨sink', disk', answer'⟩
      simp only [run, h.sink, hwrite, hwrite'] at hwritten ⊢
      obtain ⟨rfl, hdisk, rfl⟩ := hwritten
      exact ih _ ⟨h.archive, rfl, hdisk, h.unread⟩
  | print channel line next ih => exact ih ⟨h.archive, h.sink, h.disk, h.unread⟩

/-! ### Sessions -/

namespace Session

/-- Two sessions with one log file are in the same mode and have tallied the same, at sites that are
the same but for what was told. -/
structure InStep (log : Option Path) (s t : Session) : Prop where
  site : s.site.AlikeBut log t.site
  log_left : s.log = log
  log_right : t.log = log
  mode : t.mode = s.mode
  tally : t.tally = s.tally

variable {s t : Session}

theorem disk_tell (s : Session) (level : Level) (text : String) :
    (s.tell level text).site.disk =
      match s.log with
      | some place => s.site.disk.append place (Bytes.ofString (Message.line ⟨level, text⟩ ++ "\n"))
      | none => s.site.disk := by
  simp only [tell, Reporter.tell, Session.log]
  cases s.reporter.printer with
  | none => rfl
  | some printer => cases hlog : printer.log <;> simp [Printer.print, hlog]

theorem InStep.symm (h : InStep log s t) : InStep log t s where
  site := {
    archive := h.site.archive.symm
    sink := h.site.sink.symm
    disk := h.site.disk.symm
    unread := by
      rw [h.site.archive]
      exact h.site.unread }
  log_left := h.log_right
  log_right := h.log_left
  mode := h.mode.symm
  tally := h.tally.symm

/-- A session that tells something stays in step with one that tells nothing. -/
theorem InStep.tell_right (h : InStep log s t) (level : Level) (text : String) :
    InStep log s (t.tell level text) where
  site := {
    archive := h.site.archive
    sink := h.site.sink
    disk := by
      rw [disk_tell, h.log_right]
      split
      next place => exact h.site.disk.append_right rfl _
      next => exact h.site.disk
    unread := h.site.unread }
  log_left := h.log_left
  log_right := h.log_right
  mode := h.mode
  tally := h.tally

theorem InStep.tell (h : InStep log s t) (level level' : Level) (text text' : String) :
    InStep log (s.tell level text) (t.tell level' text') :=
  ((h.tell_right level' text').symm.tell_right level text).symm

theorem InStep.perform {α : Type} (h : InStep log s t) (job : Job α) :
    (t.perform job).1 = (s.perform job).1 ∧ InStep log (s.perform job).2 (t.perform job).2 := by
  obtain ⟨hvalue, hsite⟩ := job.run_alikeBut h.site
  exact ⟨hvalue, hsite, h.log_left, h.log_right, h.mode, h.tally⟩

theorem InStep.finish (h : InStep log s t) : InStep log s.finish t.finish := by
  have htold := h.tell .info .info s.tally.summaryLine t.tally.summaryLine
  simp only [Session.finish]
  split <;> split <;>
    exact ⟨htold.site, htold.log_left, htold.log_right, htold.mode, htold.tally⟩

end Session

/-! ### Exporters -/

namespace Exporter

open Session

variable {s t : Session}

theorem inStep_settle (h : InStep log s t) (pattern : String) (mode : Mode) (current total : Nat)
    (name : String) (o : Outcome) :
    InStep log (settle pattern mode current total name o s)
      (settle pattern mode current total name o t) := by
  have hshown : InStep log (s.showProgress current total name)
      (t.showProgress current total name) :=
    ⟨⟨h.site.archive, h.site.sink, h.site.disk, h.site.unread⟩, h.log_left, h.log_right, h.mode,
      h.tally⟩
  have htold := hshown.tell (report mode o).level (report mode o).level (report mode o).text
    (report mode o).text
  exact ⟨htold.site, htold.log_left, htold.log_right, htold.mode,
    congrArg (Tally.count · o) h.tally⟩

theorem inStep_settleAll (pattern : String) (mode : Mode) (total current : Nat)
    (outcomes : List (Entry × Outcome)) (h : InStep log s t) :
    InStep log (settleAll pattern mode total current outcomes s)
      (settleAll pattern mode total current outcomes t) := by
  induction outcomes generalizing current s t with
  | nil => exact h
  | cons item outcomes ih => exact ih (current + 1) (inStep_settle h _ _ _ _ _ _)

theorem inStep_exportInTurn (e : Exporter) (pattern : String) (mode : Mode) (total current : Nat)
    (entries : List Entry) (h : InStep log s t) :
    InStep log (exportInTurn e pattern mode total current entries s)
      (exportInTurn e pattern mode total current entries t) := by
  induction entries generalizing current s t with
  | nil => exact h
  | cons entry entries ih =>
      obtain ⟨houtcome, hdone⟩ := h.perform (e.dispatcher.dispatch entry mode)
      simp only [exportInTurn, houtcome]
      exact ih (current + 1) (inStep_settle hdone _ _ _ _ _ _)

theorem inStep_exportAll (e : Exporter) (mode : Mode) (entries : List Entry) (h : InStep log s t) :
    (exportAll e mode entries t).1 = (exportAll e mode entries s).1 ∧
      InStep log (exportAll e mode entries s).2 (exportAll e mode entries t).2 := by
  induction entries generalizing s t with
  | nil => exact ⟨rfl, h⟩
  | cons entry entries ih =>
      obtain ⟨houtcome, hdone⟩ := h.perform (e.dispatcher.dispatch entry mode)
      obtain ⟨houtcomes, hall⟩ := ih hdone
      simp only [exportAll, houtcome, houtcomes]
      exact ⟨trivial, hall⟩

theorem inStep_exportEntries (e : Exporter) (pattern : String) (entries : List Entry)
    (h : InStep log s t) :
    InStep log (exportEntries e pattern entries s) (exportEntries e pattern entries t) := by
  simp only [exportEntries, h.mode]
  split
  · exact inStep_exportInTurn e pattern s.mode entries.length 1 entries h
  · obtain ⟨houtcomes, hall⟩ := inStep_exportAll e s.mode entries h
    simp only [houtcomes]
    exact inStep_settleAll pattern s.mode entries.length 1 _ hall

/-- The line of a pattern is told, and makes no other difference. -/
theorem inStep_exportPattern (e : Exporter) (text : String) (line line' : Int)
    (h : InStep log s t) :
    InStep log (exportPattern e text line s) (exportPattern e text line' t) := by
  simp only [exportPattern, h.site.archive]
  cases Entry.resolve e.suffixes (e.dispatcher.normalize text) s.site.archive.keys with
  | nil =>
      have htold := h.tell .warning .warning
        (place line ++ Entry.missMessage (e.dispatcher.normalize text))
        (place line' ++ Entry.missMessage (e.dispatcher.normalize text))
      exact ⟨htold.site, htold.log_left, htold.log_right, htold.mode,
        congrArg (Tally.miss · _) h.tally⟩
  | cons entry entries => exact inStep_exportEntries e _ _ (h.tell _ _ _ _)

end Exporter

end ArchiveExport
