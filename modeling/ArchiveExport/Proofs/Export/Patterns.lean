import ArchiveExport.Proofs.Export.Interleaving
import ArchiveExport.Proofs.Export.Logged
import ArchiveExport.Proofs.Script.Lines

/-!
# Patterns with and without a script

Patterns can be exported as they are, in one mode, or as the lines of a script. Where no pattern is
taken for a comment or a header, both come to the same: lines without a pattern say nothing, and a
script starts in the mode that its first header sets, or else in that of the exporter. Only what is
told tells them apart.
-/

namespace ArchiveExport

namespace Directive

/-- A text that a script takes for a pattern or for nothing. -/
def IsPlain (text : String) : Prop :=
  (Text.trim text).toList.head? ≠ some '#' ∧ (Text.trim text).toList.head? ≠ some '['

instance (text : String) : Decidable (IsPlain text) :=
  inferInstanceAs (Decidable (_ ∧ _))

theorem parseLine_of_isPlain {text : String} (h : IsPlain text) (line : Int) :
    parseLine text line =
      .ok (if Text.trim text = "" then none else some (.pattern (Text.trim text) line)) := by
  rw [parseLine_eq_iff]
  split
  next hempty => exact .nothing hempty
  next hsolid => exact .pattern hsolid h.1 h.2

/-- A header says the mode that it lists, if there is any. -/
theorem parseLine_header {mode : Mode} (h : mode ≠ .none) (line : Int) :
    parseLine mode.header line = .ok (some (.mode mode line)) := by
  have hfirst : parseLine mode.header 0 = .ok (some (.mode mode 0)) := by
    obtain ⟨raw, structured, texture⟩ := mode
    cases raw <;> cases structured <;> cases texture
    · exact absurd rfl h
    all_goals decide
  rw [parseLine_eq, hfirst]
  rfl

end Directive

namespace Exporter

open Session

variable {e : Exporter} {log : Option Path} {s t : Session} {patterns : List String}

/-- Export patterns, but for those that are blank. -/
def exportSolid (e : Exporter) (patterns : List String) (s : Session) : Session :=
  (patterns.map Text.trim).foldl
    (fun s pattern => if pattern = "" then s else exportPattern e pattern 0 s) s

/-- Wherever the patterns stand in a script, obeying its lines exports them. -/
theorem inStep_foldl_obey (hplain : ∀ pattern ∈ patterns, Directive.IsPlain pattern) (line : Nat)
    (h : InStep log s t) :
    (Directive.parseFrom line patterns).2 = none ∧
      InStep log ((Directive.parseFrom line patterns).1.foldl (obey e) s)
        (e.exportSolid patterns t) := by
  induction patterns generalizing line s t with
  | nil => exact ⟨rfl, h⟩
  | cons pattern patterns ih =>
      obtain ⟨hfirst, hrest⟩ := List.forall_mem_cons.mp hplain
      have hline := Directive.parseLine_of_isPlain hfirst line
      by_cases hempty : Text.trim pattern = ""
      · rw [if_pos hempty] at hline
        simp only [Directive.parseFrom, hline, exportSolid, List.map_cons, List.foldl_cons,
          if_pos hempty]
        exact ih hrest (line + 1) h
      · rw [if_neg hempty] at hline
        have hnext := inStep_exportPattern e (Text.trim pattern) line 0 h
        simp only [Directive.parseFrom, hline, exportSolid, List.map_cons, List.foldl_cons,
          if_neg hempty]
        exact ih hrest (line + 1) hnext

/-- Two runs have the same tally and leave the same files and folders, but for a log file. -/
def RunAlike (log : Option Path) (run other : Session × Tally) : Prop :=
  run.2 = other.2 ∧
    ∀ place, log ≠ some place → run.1.site.disk.node? place = other.1.site.disk.node? place

/-- A script whose directives leave a session in step with that of the patterns comes to the same as
the patterns. -/
theorem runAlike_of_inStep {mode : Mode} {lines : List String} (script : String)
    (hfault : (Directive.parseLines lines).2 = none)
    (h : InStep log (obeyed e script lines s)
      (e.exportSolid patterns (s.start "<patterns>" e.label mode))) :
    RunAlike log (e.runScript script lines s) (e.runPatterns patterns mode s) := by
  have hend := h.finish
  have hrun : (e.runScript script lines s).1 = (obeyed e script lines s).finish := by
    simp only [runScript, runLines, obeyed, hfault]
  constructor
  · change (e.runScript script lines s).1.tally = _
    rw [hrun]
    exact hend.tally.symm
  · intro place hplace
    rw [hrun]
    exact (hend.site.disk.node?_eq hplace).symm

/-- Two runs that start in one mode start in step. -/
theorem inStep_start (hlog : ∀ noted ∈ s.log, ¬ s.site.archive.Reads noted)
    (script script' label : String) (mode : Mode) :
    InStep s.log (s.start script label mode) (s.start script' label mode) := by
  obtain ⟨hsite, hleft, hmode, htally⟩ := s.start_eq script label mode
  obtain ⟨hsite', hright, hmode', htally'⟩ := s.start_eq script' label mode
  exact {
    site := ⟨by rw [hsite, hsite'], by rw [hsite, hsite'], by rw [hsite, hsite']; exact .refl _ _,
      by rwa [hsite]⟩
    log_left := hleft
    log_right := hright
    mode := hmode'.trans hmode.symm
    tally := htally'.trans htally.symm }

/-- A header in the first line starts the run in its mode, and is told. -/
theorem obey_start (e : Exporter) (s : Session) (script label : String) (first mode : Mode)
    (line : Int) :
    obey e (s.start script label first) (.mode mode line) =
      (s.start script label mode).tell .info s!"{place line}export mode {mode.header}" := by
  have hstart : { s.start script label first with mode } = s.start script label mode := by
    simp only [start]
    split <;> rfl
  rw [obey, hstart]

/-- In any session, whatever was done before, and with any number of workers: exporting patterns in
the mode of the exporter comes to the same as a script with the patterns for its lines, and
exporting them in a mode with some representation comes to the same as a script that begins with the
header of the mode. No pattern may be taken for a comment or a header, and the archive must not read
the log file, which tells the lines of the script. -/
theorem runScript_alike_runPatterns (e : Exporter) (script : String) (patterns : List String)
    (s : Session)
    (hplain : ∀ pattern ∈ patterns, Directive.IsPlain pattern)
    (hlog : ∀ noted ∈ s.log, ¬ s.site.archive.Reads noted) :
    RunAlike s.log (e.runScript script patterns s) (e.runPatterns patterns e.mode s) ∧
      ∀ mode : Mode, mode ≠ .none →
        RunAlike s.log (e.runScript script (mode.header :: patterns) s)
          (e.runPatterns patterns mode s) := by
  constructor
  · obtain ⟨hfault, hobeyed⟩ := inStep_foldl_obey (e := e) hplain 1
      (inStep_start hlog script "<patterns>" e.label e.mode)
    exact runAlike_of_inStep script hfault hobeyed
  · intro mode hmode
    have hheader := Directive.parseLine_header hmode (1 : Nat)
    have hstart := (inStep_start hlog script "<patterns>" e.label mode).symm.tell_right .info
      s!"{place (1 : Nat)}export mode {mode.header}"
    obtain ⟨hfault, hobeyed⟩ := inStep_foldl_obey (e := e) hplain 2 hstart.symm
    refine runAlike_of_inStep script ?_ ?_
    · simp only [Directive.parseLines, Directive.parseFrom, hheader]
      exact hfault
    · simp only [obeyed, Directive.parseLines, Directive.parseFrom, hheader, List.foldl_cons]
      rw [obey_start]
      exact hobeyed

/-- A session on a folder with a file of text, with a log file at a place. -/
def loggedSession (place : Path) : Session :=
  let s := folderSession [("a.ini", [49])] .standard
  { s with
    site := { s.site with disk := s.site.disk.putFile place [] }
    reporter := { printer := some { log := some place } } }

theorem not_reads_loggedSession {noted : Path} (hnoted : noted ≠ ["in", "a.ini"]) (place : Path) :
    ¬ (loggedSession place).site.archive.Reads noted := by
  rintro ⟨key, file, hfile, rfl⟩
  have hmem := OrderedMap.mem_of_find?_ofList hfile
  simp only [List.map_cons, List.map_nil, List.mem_cons, Prod.mk.injEq, List.not_mem_nil,
    or_false] at hmem
  obtain ⟨-, rfl⟩ := hmem
  exact hnoted (by decide)

theorem runScript_alike_runPatterns_of_loggedSession :
    let s := loggedSession ["log.txt"]
    let patterns := [" a.ini", " ", "b*"]
    (∀ pattern ∈ patterns, Directive.IsPlain pattern) ∧
      (∀ noted ∈ s.log, ¬ s.site.archive.Reads noted) ∧
      RunAlike s.log (plainExporter.runScript "s" patterns s)
        (plainExporter.runPatterns patterns .standard s) ∧
      RunAlike s.log (plainExporter.runScript "s" ("[raw]" :: patterns) s)
        (plainExporter.runPatterns patterns ⟨true, false, false⟩ s) ∧
      let run := plainExporter.runPatterns patterns ⟨true, false, false⟩ s
      run.2.misses = ["b*"] ∧ run.1.site.disk.file? ["out", "a.ini"] = some [49] := by
  intro s patterns
  have hplain : ∀ pattern ∈ patterns, Directive.IsPlain pattern := by decide
  have hlog : ∀ noted ∈ s.log, ¬ s.site.archive.Reads noted := by
    intro noted hnoted
    obtain rfl : ["log.txt"] = noted := Option.some.inj hnoted
    exact not_reads_loggedSession (by decide) _
  obtain ⟨hdefault, hheader⟩ :=
    runScript_alike_runPatterns plainExporter "s" patterns s hplain hlog
  refine ⟨hplain, hlog, hdefault, hheader ⟨true, false, false⟩ (by decide), ?_⟩
  rw [plainExporter_eq_spelled]
  decide +kernel

/-- The log file tells the lines of a script, so it must not be compared, and what the archive
reads from it is not the same. -/
theorem runScript_unlike_runPatterns_of_loggedSession :
    let script := fun log =>
      (plainExporter.runScript "s" ["a.ini"] (loggedSession log)).1.site.disk
    let patterns := fun log =>
      (plainExporter.runPatterns ["a.ini"] .standard (loggedSession log)).1.site.disk
    Directive.IsPlain "a.ini" ∧
      (script ["out", "log.txt"]).file? ["out", "log.txt"] ≠
        (patterns ["out", "log.txt"]).file? ["out", "log.txt"] ∧
      (script ["in", "a.ini"]).file? ["out", "a.ini.txt"] ≠
        (patterns ["in", "a.ini"]).file? ["out", "a.ini.txt"] := by
  rw [plainExporter_eq_spelled]
  decide +kernel

end Exporter

end ArchiveExport
