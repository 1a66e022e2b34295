import ArchiveExport.Export.Exporter
import ArchiveExport.Proofs.Export.Dispatched
import ArchiveExport.Proofs.Export.Table
import ArchiveExport.Proofs.Script.Orders

/-!
# Runs of scripts

A run of a script dispatches the entries of its orders in turn, misses the patterns that name
nothing, and takes note of all that. A malformed header ends it and undoes nothing.
-/

namespace ArchiveExport

namespace Session

/-- The place of a session's log file. -/
def log (s : Session) : Option Path := s.reporter.printer.bind Printer.log

/-- A session has dispatched some entries and missed some patterns, and has taken note of it. -/
structure Extends (d : Dispatcher) (agenda : List (Entry × Mode)) (missed : List String)
    (s t : Session) : Prop where
  work : ∃ outcomes, t.tally.outcomes = s.tally.outcomes ++ outcomes ∧
    Dispatched d s.log agenda s.site outcomes t.site
  misses : t.tally.misses = s.tally.misses ++ missed
  unbroken : t.tally.aborted = s.tally.aborted ∧ t.tally.fatal = s.tally.fatal
  log : t.log = s.log

namespace Extends

variable {d : Dispatcher} {agenda later : List (Entry × Mode)} {missed others : List String}
  {s t u : Session}

/-- Nothing but the console, the log file and the ledger changes. -/
theorem of_noted (hsite : s.site.Noted s.log t.site) (htally : t.tally = s.tally)
    (hlog : t.log = s.log) : s.Extends d [] [] t where
  work := ⟨[], by rw [htally, List.append_nil], .done hsite⟩
  misses := by rw [htally, List.append_nil]
  unbroken := by rw [htally]; exact ⟨rfl, rfl⟩
  log := hlog

theorem refl (d : Dispatcher) (s : Session) : s.Extends d [] [] s :=
  of_noted (.refl _ _) rfl rfl

theorem trans (h : s.Extends d agenda missed t) (h' : t.Extends d later others u) :
    s.Extends d (agenda ++ later) (missed ++ others) u := by
  obtain ⟨outcomes, houtcomes, hwork⟩ := h.work
  obtain ⟨outcomes', houtcomes', hwork'⟩ := h'.work
  rw [h.log] at hwork'
  constructor
  · exact ⟨outcomes ++ outcomes', by rw [houtcomes', houtcomes, List.append_assoc],
      hwork.append hwork'⟩
  · rw [h'.misses, h.misses, List.append_assoc]
  · exact ⟨h'.unbroken.1.trans h.unbroken.1, h'.unbroken.2.trans h.unbroken.2⟩
  · exact h'.log.trans h.log

theorem keys (h : s.Extends d agenda missed t) : t.site.archive.keys = s.site.archive.keys := by
  obtain ⟨outcomes, -, hwork⟩ := h.work
  exact hwork.keys

end Extends

/-! ### Taking note -/

theorem noted_tell (s : Session) (level : Level) (text : String) :
    s.site.Noted s.log (s.tell level text).site := by
  refine ⟨rfl, rfl, ?_⟩
  simp only [tell, Reporter.tell, log]
  cases hprinter : s.reporter.printer with
  | none => rfl
  | some p =>
      cases hlog : p.log with
      | none => simp [Printer.print, hlog]
      | some place => simp [Printer.print, hlog, Disk.withoutLog, Disk.remove_append]

theorem log_tell (s : Session) (level : Level) (text : String) :
    (s.tell level text).log = s.log := rfl

theorem extends_tell (d : Dispatcher) (s : Session) (level : Level) (text : String) :
    s.Extends d [] [] (s.tell level text) :=
  .of_noted (noted_tell s level text) rfl (log_tell s level text)

theorem noted_finish (s : Session) :
    s.site.Noted s.log s.finish.site ∧ s.finish.tally = s.tally := by
  have htold := noted_tell s .info s.tally.summaryLine
  simp only [finish]
  split
  · exact ⟨htold, rfl⟩
  · exact ⟨htold, rfl⟩

theorem start_eq (s : Session) (script label : String) (mode : Mode) :
    (s.start script label mode).site = s.site ∧ (s.start script label mode).log = s.log ∧
      (s.start script label mode).mode = mode ∧ (s.start script label mode).tally = {} := by
  simp only [start]
  split <;> exact ⟨rfl, rfl, rfl, rfl⟩

end Session

theorem Tally.outcomes_count (t : Tally) (o : Outcome) :
    (t.count o).outcomes = t.outcomes ++ [o] ∧ (t.count o).misses = t.misses ∧
      (t.count o).aborted = t.aborted ∧ (t.count o).fatal = t.fatal := by
  simp only [count]
  split <;> exact ⟨rfl, rfl, rfl, rfl⟩

namespace Exporter

variable {e : Exporter}

/-! ### Patterns -/

theorem settle_eq (pattern : String) (mode : Mode) (current total : Nat) (name : String)
    (o : Outcome) (s : Session) :
    s.site.Noted s.log (settle pattern mode current total name o s).site ∧
      (settle pattern mode current total name o s).tally = s.tally.count o ∧
      (settle pattern mode current total name o s).log = s.log ∧
      (settle pattern mode current total name o s).mode = s.mode := by
  have hshown : s.site.Noted s.log (s.showProgress current total name).site := ⟨rfl, rfl, rfl⟩
  have htold := Session.noted_tell (s.showProgress current total name) (report mode o).level
    (report mode o).text
  exact ⟨hshown.trans htold, rfl, rfl, rfl⟩

/-- Exporting entries in turn dispatches them in turn. -/
theorem extends_exportInTurn (e : Exporter) (pattern : String) (mode : Mode) (total : Nat)
    (current : Nat) (entries : List Entry) (s : Session) :
    s.Extends e.dispatcher (entries.map fun entry => (entry, mode)) []
        (exportInTurn e pattern mode total current entries s) ∧
      (exportInTurn e pattern mode total current entries s).mode = s.mode := by
  induction entries generalizing current s with
  | nil => exact ⟨.refl _ s, rfl⟩
  | cons entry entries ih =>
      simp only [exportInTurn]
      cases hrun : (e.dispatcher.dispatch entry mode).run s.site with
      | mk o left =>
          simp only [Session.perform, hrun]
          obtain ⟨hnoted, htally, hlog, hmode⟩ :=
            settle_eq pattern mode current total entry.identifier o { s with site := left }
          obtain ⟨hcounted, hmisses, haborted, hfatal⟩ := s.tally.outcomes_count o
          have hfirst : s.Extends e.dispatcher [(entry, mode)] []
              (settle pattern mode current total entry.identifier o { s with site := left }) := by
            constructor
            · exact ⟨[o], by rw [htally, hcounted], .next (.refl _ _) hrun (.done hnoted)⟩
            · rw [htally, hmisses, List.append_nil]
            · rw [htally]
              exact ⟨haborted, hfatal⟩
            · exact hlog
          obtain ⟨hrest, hmode'⟩ := ih (current + 1)
            (settle pattern mode current total entry.identifier o { s with site := left })
          exact ⟨hfirst.trans hrest, hmode'.trans hmode⟩

/-- The entries that orders name among some keys, in order, each with the mode of its order. -/
def agenda (e : Exporter) (keys : List String) (orders : List (String × Mode)) :
    List (Entry × Mode) :=
  orders.flatMap fun (text, mode) =>
    (Entry.resolve e.suffixes (e.dispatcher.normalize text) keys).map fun entry => (entry, mode)

/-- The patterns with wildcards among orders that name nothing among some keys. -/
def unmatched (e : Exporter) (keys : List String) (orders : List (String × Mode)) : List String :=
  (orders.map fun order => e.dispatcher.normalize order.1).filter fun pattern =>
    Glob.hasWildcard pattern && (Entry.resolve e.suffixes pattern keys).isEmpty

theorem agenda_append (keys : List String) (xs ys : List (String × Mode)) :
    e.agenda keys (xs ++ ys) = e.agenda keys xs ++ e.agenda keys ys :=
  List.flatMap_append

theorem unmatched_append (keys : List String) (xs ys : List (String × Mode)) :
    e.unmatched keys (xs ++ ys) = e.unmatched keys xs ++ e.unmatched keys ys := by
  simp only [unmatched, List.map_append, List.filter_append]

/-- Only a pattern with wildcards can name nothing. -/
theorem hasWildcard_of_resolve_eq_nil {suffixes keys : List String} {pattern : String}
    (h : Entry.resolve suffixes pattern keys = []) : Glob.hasWildcard pattern = true := by
  rw [Entry.resolve] at h
  split at h
  next hwildcard => exact hwildcard
  next hliteral => simp at h

/-- Exporting a pattern carries out its order in the mode in force. -/
theorem extends_exportPattern (hworkers : e.workers ≤ 1) (text : String) (line : Int)
    (s : Session) :
    s.Extends e.dispatcher (e.agenda s.site.archive.keys [(text, s.mode)])
        (e.unmatched s.site.archive.keys [(text, s.mode)]) (exportPattern e text line s) ∧
      (exportPattern e text line s).mode = s.mode := by
  cases hentries : Entry.resolve e.suffixes (e.dispatcher.normalize text) s.site.archive.keys with
  | nil =>
      have hwildcard := hasWildcard_of_resolve_eq_nil hentries
      have htold := Session.noted_tell s .warning
        (place line ++ Entry.missMessage (e.dispatcher.normalize text))
      have hunmatched : e.unmatched s.site.archive.keys [(text, s.mode)] =
          [e.dispatcher.normalize text] := by
        simp [unmatched, hwildcard, hentries]
      have hagenda : e.agenda s.site.archive.keys [(text, s.mode)] = [] := by
        simp [agenda, hentries]
      rw [hunmatched, hagenda]
      simp only [exportPattern, hentries]
      exact ⟨⟨⟨[], (List.append_nil _).symm, .done htold⟩, rfl, ⟨rfl, rfl⟩, rfl⟩, rfl⟩
  | cons entry entries =>
      have hunmatched : e.unmatched s.site.archive.keys [(text, s.mode)] = [] := by
        simp [unmatched, hentries]
      have hagenda : e.agenda s.site.archive.keys [(text, s.mode)] =
          (entry :: entries).map fun entry => (entry, s.mode) := by
        simp [agenda, hentries]
      rw [hunmatched, hagenda]
      have hall : ∀ message,
          s.Extends e.dispatcher ((entry :: entries).map fun entry => (entry, s.mode)) []
              (exportEntries e (e.dispatcher.normalize text) (entry :: entries)
                (s.tell .info message)) ∧
            (exportEntries e (e.dispatcher.normalize text) (entry :: entries)
              (s.tell .info message)).mode = s.mode := by
        intro message
        have htold := Session.extends_tell e.dispatcher s .info message
        obtain ⟨hexported, hmode⟩ := extends_exportInTurn e (e.dispatcher.normalize text) s.mode
          (entry :: entries).length 1 (entry :: entries) (s.tell .info message)
        rw [exportEntries, if_pos (Or.inl hworkers)]
        exact ⟨htold.trans hexported, hmode⟩
      simp only [exportPattern, hentries]
      exact hall _

/-! ### Scripts -/

/-- Obeying a header sets the mode. -/
theorem extends_obey_mode (active : Mode) (line : Int) (s : Session) :
    s.Extends e.dispatcher [] [] (obey e s (.mode active line)) ∧
      (obey e s (.mode active line)).mode = active := by
  have htold := Session.noted_tell { s with mode := active } .info
    s!"{place line}export mode {active.header}"
  exact ⟨.of_noted htold rfl rfl, rfl⟩

/-- Obeying the directives of lines carries out the orders of the lines in force. -/
theorem extends_foldl_obey (hworkers : e.workers ≤ 1) (lines : List String) (line : Nat)
    (s : Session) :
    s.Extends e.dispatcher
      (e.agenda s.site.archive.keys (Script.orders s.mode (Script.soundLines lines)))
      (e.unmatched s.site.archive.keys (Script.orders s.mode (Script.soundLines lines)))
      ((Directive.parseFrom line lines).1.foldl (obey e) s) := by
  -- the mode of the session is the mode in force at the first of the lines
  induction lines generalizing line s with
  | nil => exact .refl _ s
  | cons text lines ih =>
      rw [Script.soundLines_cons]
      cases hline : Directive.parseLine text 0 with
      | error fault =>
          have hbad : Directive.isMalformed text = true := by simp [Directive.isMalformed, hline]
          rw [if_pos hbad, Directive.parseFrom_cons_of_error hline]
          exact .refl _ s
      | ok directive =>
          have hgood : ¬ Directive.isMalformed text = true := by
            simp [Directive.isMalformed, hline]
          rw [if_neg hgood, Script.orders_cons_of_ok hline, Directive.parseFrom_cons_of_ok hline,
            List.foldl_append]
          rcases directive with _ | comment | ⟨active, _⟩ | ⟨pattern, _⟩
          · exact ih (line + 1) s
          · exact ih (line + 1) s
          · obtain ⟨hobeyed, hactive⟩ := extends_obey_mode (e := e) active line s
            have hrest := ih (line + 1) (obey e s (.mode active line))
            rw [hobeyed.keys, hactive] at hrest
            exact hobeyed.trans hrest
          · obtain ⟨hexported, hkept⟩ := extends_exportPattern hworkers pattern line s
            have hrest := ih (line + 1) (exportPattern e pattern line s)
            rw [hexported.keys, hkept] at hrest
            have hboth := hexported.trans hrest
            rw [← agenda_append, ← unmatched_append] at hboth
            exact hboth

/-- The session behind the directives of a script, before the run ends. -/
def obeyed (e : Exporter) (script : String) (lines : List String) (s : Session) : Session :=
  (Directive.parseLines lines).1.foldl (obey e) (s.start script e.label e.mode)

/-- Ending a run counts the fault of the script, if there is one, and changes nothing else. -/
theorem runScript_eq (e : Exporter) (script : String) (lines : List String) (s : Session) :
    (obeyed e script lines s).site.Noted (obeyed e script lines s).log
        (e.runScript script lines s).1.site ∧
      (e.runScript script lines s).2 =
        match (Directive.parseLines lines).2 with
        | none => (obeyed e script lines s).tally
        | some fault => (obeyed e script lines s).tally.abort fault.message := by
  have htally : (e.runScript script lines s).2 = (e.runScript script lines s).1.tally := rfl
  cases hfault : (Directive.parseLines lines).2 with
  | none =>
      have hrun : (e.runScript script lines s).1 = (obeyed e script lines s).finish := by
        simp only [runScript, runLines, obeyed, hfault]
      rw [htally, hrun]
      exact Session.noted_finish _
  | some fault =>
      have htold := Session.noted_tell (obeyed e script lines s) .error
        s!"{script}: {fault.message}"
      have hrun : (e.runScript script lines s).1 =
          { (obeyed e script lines s).tell .error s!"{script}: {fault.message}" with
            tally := (obeyed e script lines s).tally.abort fault.message }.finish := by
        simp only [runScript, runLines, obeyed, hfault]
        rfl
      obtain ⟨hnoted, hended⟩ := Session.noted_finish
        { (obeyed e script lines s).tell .error s!"{script}: {fault.message}" with
          tally := (obeyed e script lines s).tally.abort fault.message }
      rw [htally, hrun]
      exact ⟨htold.trans hnoted, hended⟩

theorem extends_obeyed (hworkers : e.workers ≤ 1) (script : String) (lines : List String)
    (s : Session) :
    (s.start script e.label e.mode).Extends e.dispatcher
      (e.agenda s.site.archive.keys (Script.orders e.mode (Script.soundLines lines)))
      (e.unmatched s.site.archive.keys (Script.orders e.mode (Script.soundLines lines)))
      (obeyed e script lines s) := by
  obtain ⟨hsite, -, hmode, -⟩ := s.start_eq script e.label e.mode
  have hobeyed := extends_foldl_obey hworkers lines 1 (s.start script e.label e.mode)
  rw [hsite, hmode] at hobeyed
  exact hobeyed

/-- The outcomes and the misses of a run are those of the directives obeyed. -/
theorem outcomes_runScript (e : Exporter) (script : String) (lines : List String) (s : Session) :
    (e.runScript script lines s).2.outcomes = (obeyed e script lines s).tally.outcomes ∧
      (e.runScript script lines s).2.misses = (obeyed e script lines s).tally.misses := by
  rw [(runScript_eq e script lines s).2]
  cases (Directive.parseLines lines).2 with
  | none => exact ⟨rfl, rfl⟩
  | some fault => exact ⟨rfl, rfl⟩

/-- A run dispatches the agenda of its lines in force and misses what they do not match. -/
theorem dispatched_runScript (hworkers : e.workers ≤ 1) (script : String) (lines : List String)
    (s : Session) :
    Dispatched e.dispatcher s.log
        (e.agenda s.site.archive.keys (Script.orders e.mode (Script.soundLines lines))) s.site
        (e.runScript script lines s).2.outcomes (e.runScript script lines s).1.site ∧
      (e.runScript script lines s).2.misses =
        e.unmatched s.site.archive.keys (Script.orders e.mode (Script.soundLines lines)) := by
  obtain ⟨hsite, hlog, -, hbegun⟩ := s.start_eq script e.label e.mode
  have hextends := extends_obeyed hworkers script lines s
  obtain ⟨outcomes, houtcomes, hwork⟩ := hextends.work
  have hmisses := hextends.misses
  have hnoted := (runScript_eq e script lines s).1
  obtain ⟨hcounted, hmissed⟩ := outcomes_runScript e script lines s
  rw [hbegun, List.nil_append] at houtcomes hmisses
  rw [hsite, hlog] at hwork
  rw [hextends.log, hlog] at hnoted
  refine ⟨?_, hmissed.trans hmisses⟩
  rw [hcounted, houtcomes]
  have hall := hwork.append (.done hnoted)
  rwa [List.append_nil, List.append_nil] at hall

/-- A run of lines without a malformed header is not broken off. -/
theorem runScript_of_sound (hworkers : e.workers ≤ 1) (script : String) {lines : List String}
    (s : Session) (h : ∀ line ∈ lines, Directive.isMalformed line = false) :
    (e.runScript script lines s).2.aborted = false ∧
      (e.runScript script lines s).2.fatal = none := by
  have hfault : (Directive.parseLines lines).2 = none := Script.parseFrom_of_sound 1 h
  have htally := (runScript_eq e script lines s).2
  obtain ⟨haborted, hfatal⟩ := (extends_obeyed hworkers script lines s).unbroken
  rw [(s.start_eq script e.label e.mode).2.2.2] at haborted hfatal
  rw [htally, hfault]
  exact ⟨haborted, hfatal⟩

/-- A malformed header is added to the run of the lines before it, whatever lines follow. -/
theorem runScript_append (hworkers : e.workers ≤ 1) (script : String) {sound rest : List String}
    {header : String} {fault : ScriptFault} (s : Session)
    (h : ∀ line ∈ sound, Directive.isMalformed line = false)
    (hheader : Directive.parseLine header (sound.length + 1) = .error fault) :
    (e.runScript script (sound ++ header :: rest) s).2 =
        (e.runScript script sound s).2.abort fault.message ∧
      (e.runScript script sound s).1.site.Noted s.log
        (e.runScript script (sound ++ header :: rest) s).1.site := by
  have hplace : ((1 + sound.length : Nat) : Int) = sound.length + 1 := by omega
  have hline : Directive.parseLine header (1 + sound.length : Nat) = .error fault := by
    rw [hplace]
    exact hheader
  have hparse : Directive.parseLines (sound ++ header :: rest) =
      ((Directive.parseLines sound).1, some fault) := Script.parseFrom_append h hline
  have hsound : (Directive.parseLines sound).2 = none := Script.parseFrom_of_sound 1 h
  have hobeyed : obeyed e script (sound ++ header :: rest) s = obeyed e script sound s := by
    rw [obeyed, obeyed, hparse]
  have hlog : (obeyed e script sound s).log = s.log :=
    (extends_obeyed hworkers script sound s).log.trans (s.start_eq script e.label e.mode).2.1
  obtain ⟨hnoted, htally⟩ := runScript_eq e script (sound ++ header :: rest) s
  obtain ⟨hnoted', htally'⟩ := runScript_eq e script sound s
  rw [hobeyed, hlog] at hnoted
  rw [hlog] at hnoted'
  rw [hparse, hobeyed] at htally
  rw [hsound] at htally'
  constructor
  · rw [htally, htally']
  · exact hnoted'.symm.trans hnoted

/-- A run of a script, whatever the session did before, dispatches the entries that the patterns
before the first malformed header name, in their order and each in the mode of the last header
before its pattern, and misses the patterns that name nothing. A malformed header counts as a fault
and undoes nothing, and the lines behind it do nothing: the outcomes, the archive and the disk are
those of the lines before it. -/
theorem runScript_carries_out (hworkers : e.workers ≤ 1) (script : String) (lines : List String)
    (s : Session) :
    let orders := Script.orders e.mode (Script.soundLines lines)
    Dispatched e.dispatcher s.log (e.agenda s.site.archive.keys orders) s.site
        (e.runScript script lines s).2.outcomes (e.runScript script lines s).1.site ∧
      (e.runScript script lines s).2.misses = e.unmatched s.site.archive.keys orders ∧
      ((∀ line ∈ lines, Directive.isMalformed line = false) →
        (e.runScript script lines s).2.aborted = false ∧
          (e.runScript script lines s).2.fatal = none) ∧
      ∀ sound header rest fault, lines = sound ++ header :: rest →
        (∀ line ∈ sound, Directive.isMalformed line = false) →
        Directive.parseLine header (sound.length + 1) = .error fault →
        (e.runScript script lines s).2 = (e.runScript script sound s).2.abort fault.message ∧
          (e.runScript script sound s).1.site.Noted s.log (e.runScript script lines s).1.site := by
  intro orders
  obtain ⟨hwork, hmisses⟩ := dispatched_runScript hworkers script lines s
  refine ⟨hwork, hmisses, runScript_of_sound hworkers script s, ?_⟩
  rintro sound header rest fault rfl hsound hheader
  exact runScript_append hworkers script s hsound hheader

/-- An exporter with standard settings. -/
def plainExporter : Exporter :=
  { dispatcher := { codecs := .plain, normalize := FolderArchive.normalize } }

theorem plainExporter_eq_spelled :
    plainExporter =
      { plainExporter with dispatcher := { plainExporter.dispatcher with table := .spelled } } := by
  rw [← DispatchTable.standard_eq_spelled]
  rfl

theorem ofSettings_standard (environment : Environment) (path : Option String) (label : String) :
    ofSettings (.standard environment path) .plain .standard FolderArchive.normalize label =
      .ok { plainExporter with label } :=
  rfl

/-- A session on an archive without entries. -/
def emptySession : Session :=
  { site := ⟨.folder {}, .empty, ⟨.ofText ⟨"/", []⟩ "out", []⟩, {}⟩, now := ⟨0⟩ }

/-- A session on a folder with some files, in a mode. -/
def folderSession (files : List (String × Bytes)) (mode : Mode) : Session :=
  { site := {
      archive := .folder ⟨.ofList (files.map fun (name, _) => (name, ⟨"/in/" ++ name, 0⟩))⟩
      disk := files.foldl (fun disk (name, data) => disk.putFile ["in", name] data) .empty
      sink := { root := ⟨"/", ["out"]⟩ }
      console := {} }
    now := ⟨0⟩
    mode }

/-- A session on two files of text, to be exported as they are and as texts. -/
def twoFiles : Session :=
  folderSession [("a.ini", [49]), ("b.ini", [50])] { raw := true, structured := true }

theorem keys_twoFiles : twoFiles.site.archive.keys = ["a.ini", "b.ini"] :=
  List.mergeSort_of_pairwise (by decide)

theorem runScript_carries_out_of_twoFiles :
    let sound := ["a*", "[raw]", "b.ini", "c*"]
    let lines := sound ++ "[nope" :: ["b*"]
    plainExporter.workers ≤ 1 ∧ (∀ line ∈ sound, Directive.isMalformed line = false) ∧
      Directive.parseLine "[nope" (sound.length + 1) = .error ⟨.unclosed, "[nope", 5⟩ ∧
      Dispatched plainExporter.dispatcher none
        [(⟨"a.ini", "a*", ["a.ini"]⟩, .standard),
          (⟨"b.ini", "b.ini", ["b.ini"]⟩, { raw := true, structured := false })] twoFiles.site
        (plainExporter.runScript "s" lines twoFiles).2.outcomes
        (plainExporter.runScript "s" lines twoFiles).1.site ∧
      (plainExporter.runScript "s" lines twoFiles).2.misses = ["c*"] ∧
      (plainExporter.runScript "s" lines twoFiles).2 =
        (plainExporter.runScript "s" sound twoFiles).2.abort
          (ScriptFault.message ⟨.unclosed, "[nope", 5⟩) := by
  intro sound lines
  have hworkers : plainExporter.workers ≤ 1 := by decide
  have hsound : ∀ line ∈ sound, Directive.isMalformed line = false := by decide
  have hheader : Directive.parseLine "[nope" (sound.length + 1) =
      .error ⟨.unclosed, "[nope", 5⟩ := by
    decide
  have hagenda :
      plainExporter.agenda ["a.ini", "b.ini"]
          (Script.orders plainExporter.mode (Script.soundLines lines)) =
        [(⟨"a.ini", "a*", ["a.ini"]⟩, .standard),
          (⟨"b.ini", "b.ini", ["b.ini"]⟩, { raw := true, structured := false })] := by
    decide +kernel
  obtain ⟨hwork, hmisses, -, habort⟩ := runScript_carries_out hworkers "s" lines twoFiles
  rw [keys_twoFiles] at hwork hmisses
  rw [hagenda] at hwork
  exact ⟨hworkers, hsound, hheader, hwork, hmisses.trans (by decide +kernel),
    (habort sound "[nope" ["b*"] _ rfl hsound hheader).1⟩

end Exporter

end ArchiveExport
