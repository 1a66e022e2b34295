import ArchiveExport.Proofs.Export.Events

/-!
# The books of runs

A run is told of by its tally, by its row in the ledger and by its records. When the run has ended
the three agree, since all of them follow its events, and later runs leave the row and the records
as they are, since each has a number of its own.
-/

namespace ArchiveExport

namespace Session

variable {s t u : Session} {l : Ledger} {row : Ledger.Run} {events later : List Event}

/-! ### The run of a session -/

/-- The ledger of a session has the session's run, with its events, on top of another ledger. -/
structure Books (t : Session) (l : Ledger) (row : Ledger.Run) (events : List Event) : Prop where
  id : row.id = t.run
  ledger : ∃ l', t.ledger = some l' ∧ l.Adds l' t.now row (events.map (Event.note t.run))

theorem books_start (hledger : s.ledger = some l) (script label : String) (mode : Mode) :
    ∃ row, row.finished = none ∧ (s.start script label mode).now = s.now ∧
      (s.start script label mode).Books l row [] := by
  have hadds := l.adds_start s.now script label s.site.sink.root.text
  obtain ⟨hledger', hrun, hnow⟩ :
      (s.start script label mode).ledger =
          some (l.start s.now script label s.site.sink.root.text).1 ∧
        (s.start script label mode).run = (l.start s.now script label s.site.sink.root.text).2 ∧
        (s.start script label mode).now = s.now := by
    simp only [start, hledger, and_self]
  have hbooks : (s.start script label mode).Books l
      { id := (l.start s.now script label s.site.sink.root.text).2
        script, archive := label, outputFolder := s.site.sink.root.text, started := s.now } [] := by
    refine ⟨hrun.symm, _, hledger', ?_⟩
    rw [hnow]
    exact hadds
  exact ⟨_, rfl, hnow, hbooks⟩

theorem Books.tracks (h : t.Books l row events) (h' : t.Tracks u later) :
    u.Books l row (events ++ later) := by
  obtain ⟨l', hledger, hadds⟩ := h.ledger
  have hown : ∀ n ∈ later.map (Event.note t.run), n.run = row.id := by
    intro n hn
    obtain ⟨event, -, rfl⟩ := List.mem_map.mp hn
    rw [event.run_note, h.id]
  refine ⟨h.id.trans h'.run.symm, l'.recordAll t.now (later.map (Event.note t.run)), ?_, ?_⟩
  · rw [h'.ledger, hledger, Option.map_some]
  · rw [h'.now, h'.run, List.map_append]
    exact hadds.recordAll hown

/-- A session has ended the run of another one: its tally has the same outcomes and misses, and the
ledger notes its result. -/
structure Closes (s t : Session) : Prop where
  ledger : t.ledger =
    s.ledger.map fun l => (l.finish s.now s.run t.tally.result).toOption.getD l
  run : t.run = s.run
  now : t.now = s.now
  outcomes : t.tally.outcomes = s.tally.outcomes
  misses : t.tally.misses = s.tally.misses
  counted : s.tally.Counted → t.tally.Counted

theorem closes_finish (s : Session) : s.Closes s.finish := by
  have htally := (noted_finish s).2
  refine ⟨?_, ?_, ?_, by rw [htally], by rw [htally], by rw [htally]; exact id⟩
  · rw [htally]
    cases hledger : s.ledger <;> simp [finish, tell, hledger]
  · cases hledger : s.ledger <;> simp [finish, tell, hledger]
  · cases hledger : s.ledger <;> simp [finish, tell, hledger]

/-- Breaking a run off changes how it ends, but not its outcomes and misses. -/
theorem closes_finish_abort (s : Session) (level : Level) (text message : String) :
    s.Closes { s.tell level text with tally := s.tally.abort message }.finish := by
  have hclosed := closes_finish { s.tell level text with tally := s.tally.abort message }
  exact { hclosed with counted := fun h => hclosed.counted (h.abort message) }

theorem Books.closes (h : t.Books l row events) (h' : t.Closes u) :
    u.Books l { row with finished := some u.now, result := u.tally.result } events := by
  obtain ⟨l', hledger, hadds⟩ := h.ledger
  refine ⟨h.id.trans h'.run.symm, (l'.finish t.now t.run u.tally.result).toOption.getD l', ?_, ?_⟩
  · rw [h'.ledger, hledger, Option.map_some]
  · rw [h'.now, h'.run, ← h.id]
    rw [← h.id] at hadds
    exact hadds.finish u.tally.result

end Session

namespace Exporter

variable {e : Exporter} {s t : Session} {l : Ledger}

/-! ### Runs -/

/-- The session behind the directives of a script has carried out the patterns they order. -/
theorem carriesOut_obeyed (e : Exporter) (script : String) (lines : List String) (s : Session) :
    e.CarriesOut ((Directive.parseLines lines).1.filterMap Directive.ordered?)
      (s.start script e.label e.mode) (obeyed e script lines s) :=
  carriesOut_foldl (fun s directive => carriesOut_obey e directive s) _ _

/-- A run of lines ends, unless the text breaks off before a malformed header. -/
theorem closes_runLines (e : Exporter) (script : String) (lines : List String)
    {textFault : Option Text.Charset.Fault} (s : Session)
    (h : textFault = none ∨ (Directive.parseLines lines).2 ≠ none) :
    (obeyed e script lines s).Closes (e.runLines script lines textFault s).1 ∧
      (e.runLines script lines textFault s).2 =
        .ok (e.runLines script lines textFault s).1.tally := by
  cases hfault : (Directive.parseLines lines).2 with
  | some fault =>
      have hclosed := Session.closes_finish_abort (obeyed e script lines s) .error
        s!"{script}: {fault.message}" fault.message
      simp only [runLines, hfault]
      exact ⟨hclosed, trivial⟩
  | none =>
      have hnone : textFault = none := h.resolve_right fun hne => hne hfault
      have hclosed := Session.closes_finish (obeyed e script lines s)
      simp only [runLines, hfault, hnone]
      exact ⟨hclosed, trivial⟩

/-- What a new run carries out leaves the counts of its outcomes. -/
theorem CarriesOut.counted {texts : List String} {script label : String} {mode : Mode}
    (h : e.CarriesOut texts (s.start script label mode) t) : t.tally.Counted := by
  obtain ⟨blocks, -, htracks⟩ := h
  rw [htracks.tally, (s.start_eq script label mode).2.2.2]
  exact Tally.counted_empty.foldl_take blocks.flatten

/-- What an exporter is asked to carry out. -/
inductive Task where
  | script (name : String) (lines : List String)
  | patterns (texts : List String) (mode : Mode)

/-- The patterns that a task orders, in order. -/
def Task.texts : Task → List String
  | script _ lines => (Directive.parseLines lines).1.filterMap Directive.ordered?
  | patterns texts _ => (texts.map Text.trim).filter (· ≠ "")

/-- Carry out a task. -/
def carryOut (e : Exporter) : Task → Session → Session × Tally
  | .script name lines, s => e.runScript name lines s
  | .patterns texts mode, s => e.runPatterns texts mode s

/-- A task is carried out pattern by pattern, and then its run ends. -/
theorem closes_carryOut (e : Exporter) (task : Task) (s : Session) :
    ∃ script mode t, e.CarriesOut task.texts (s.start script e.label mode) t ∧
      t.Closes (e.carryOut task s).1 ∧ (e.carryOut task s).2 = (e.carryOut task s).1.tally := by
  cases task with
  | script name lines =>
      obtain ⟨hclosed, -⟩ := closes_runLines e name lines s (.inl rfl)
      exact ⟨name, e.mode, obeyed e name lines s, carriesOut_obeyed e name lines s, hclosed, rfl⟩
  | patterns texts mode =>
      have hstep : ∀ (s : Session) (text : String),
          e.CarriesOut (Option.guard (fun text => decide (text ≠ "")) text).toList s
            (if text = "" then s else exportPattern e text 0 s) := by
        intro s text
        by_cases hempty : text = ""
        · simpa [Option.guard, hempty] using CarriesOut.of_tracks (e := e) (.refl s)
        · simpa [Option.guard, hempty] using carriesOut_exportPattern e text 0 s
      have hcarried := carriesOut_foldl hstep (texts.map Text.trim)
        (s.start "<patterns>" e.label mode)
      rw [List.filterMap_eq_filter] at hcarried
      exact ⟨"<patterns>", mode, _, hcarried, Session.closes_finish _, rfl⟩

end Exporter

/-! ### Counts of records -/

/-- A tally, and the row and the records of a run, all tell the same events. -/
structure Ledger.Agrees (l : Ledger) (run : Nat) (now : Moment) (t : Tally)
    (events : List Event) : Prop where
  total : t.exported + t.unsupported + t.failed.length = t.outcomes.length
  success_iff : t.success = true ↔ t.failed = [] ∧ t.misses = [] ∧ t.aborted = false
  outcomes : t.outcomes = events.filterMap Event.outcome?
  misses : t.misses = events.filterMap Event.missed?
  row : ∃ row, l.run? run = some row ∧ row.finished = some now ∧ row.result = t.result
  records : List.Forall₂ (fun event r => Ledger.Record.States now (event.note run) r) events
    (l.recordsOf run)
  ordered : (l.recordsOf run).Pairwise fun r later => r.id < later.id
  exported : (l.recordsOf run).countP (·.status = "success") = t.exported
  unsupported : (l.recordsOf run).countP (·.status = "unsupported") = t.unsupported
  failed : (l.recordsOf run).countP (·.status = "failed") = t.failed.length
  missed : (l.recordsOf run).countP (·.status = "miss") = t.misses.length

/-- Records that state events are counted by their status as the events are. -/
theorem countP_records {now : Moment} {run : Nat} {events : List Event}
    {records : List Ledger.Record}
    (h : List.Forall₂ (fun event r => Ledger.Record.States now (event.note run) r) events records)
    (status : String) :
    records.countP (·.status = status) =
      events.countP fun event => (event.note run).status = status := by
  induction h with
  | nil => rfl
  | @cons event r events records hstates _ ih =>
      have hstatus : r.status = (event.note run).status := by rw [hstates]; rfl
      rw [List.countP_cons, List.countP_cons, ih, hstatus]

/-- Events are counted by a status as their outcomes are. -/
theorem countP_outcomes (run : Nat) (events : List Event) (status : Status) :
    (events.countP fun event => (event.note run).status = status.label) =
      (events.filterMap Event.outcome?).countP (·.status = status) := by
  rw [List.countP_filterMap]
  refine List.countP_congr fun event _ => ?_
  cases event with
  | outcome pattern o =>
      cases hstatus : o.status <;> cases status <;>
        simp [Event.note, Event.outcome?, Exporter.noteOf, Status.label, hstatus]
  | miss pattern => cases status <;> simp [Event.note, Event.outcome?, Status.label]

theorem countP_misses (run : Nat) (events : List Event) :
    (events.countP fun event => (event.note run).status = "miss") =
      (events.filterMap Event.missed?).length := by
  rw [List.length_filterMap_eq_countP]
  refine List.countP_congr fun event _ => ?_
  cases event with
  | outcome pattern o =>
      cases hstatus : o.status <;>
        simp [Event.note, Event.missed?, Exporter.noteOf, Status.label, hstatus]
  | miss pattern => simp [Event.note, Event.missed?]

/-- Where tally, row and records follow the same events, they agree. -/
theorem Session.Books.agrees {t : Session} {l l' : Ledger} {row : Ledger.Run}
    {events : List Event} (h : t.Books l row events) (hlisted : l.Listed)
    (hfinished : row.finished = some t.now) (hresult : row.result = t.tally.result)
    (hcounted : t.tally.Counted) (houtcomes : t.tally.outcomes = events.filterMap Event.outcome?)
    (hmisses : t.tally.misses = events.filterMap Event.missed?) (hledger : t.ledger = some l') :
    l.Adds l' t.now row (events.map (Event.note t.run)) ∧
      l'.Agrees t.run t.now t.tally events := by
  obtain ⟨found, hfound, hadds⟩ := h.ledger
  obtain rfl : l' = found := Option.some.inj (hledger.symm.trans hfound)
  have hrow := hadds.run?_self
  obtain ⟨hstate, hordered⟩ := hadds.recordsOf_self hlisted
  rw [h.id] at hrow hstate hordered
  rw [List.forall₂_map_left_iff] at hstate
  have hcount : ∀ status : Status,
      (l'.recordsOf t.run).countP (·.status = status.label) =
        t.tally.outcomes.countP (·.status = status) := by
    intro status
    rw [countP_records hstate, countP_outcomes, houtcomes]
  refine ⟨hadds, hcounted.total, hcounted.success_iff, houtcomes, hmisses,
    ⟨row, hrow, hfinished, hresult⟩, hstate, hordered, ?_, ?_, ?_, ?_⟩
  · rw [hcounted.exported]
    exact hcount .success
  · rw [hcounted.unsupported]
    exact hcount .unsupported
  · rw [hcounted.failed, List.length_map, ← List.countP_eq_length_filter]
    exact hcount .failed
  · rw [countP_records hstate, countP_misses, hmisses]

/-- A run that has carried out some patterns is on top of the ledger it started with, without an
end, and its tally has the outcomes and the misses of its events. -/
theorem Exporter.CarriesOut.exists_books {e : Exporter} {texts : List String} {s t : Session}
    {l : Ledger} {script label : String} {mode : Mode}
    (h : e.CarriesOut texts (s.start script label mode) t) (hledger : s.ledger = some l) :
    ∃ row blocks, row.finished = none ∧ t.now = s.now ∧
      List.Forall₂ (e.ComesTo s.site.archive.keys) texts blocks ∧ t.Books l row blocks.flatten ∧
      t.tally.outcomes = blocks.flatten.filterMap Event.outcome? ∧
      t.tally.misses = blocks.flatten.filterMap Event.missed? := by
  obtain ⟨blocks, hblocks, htracks⟩ := h
  obtain ⟨hsite, -, -, hempty⟩ := s.start_eq script label mode
  obtain ⟨row, hopen, hnow, hstarted⟩ := Session.books_start hledger script label mode
  have htally := htracks.tally
  rw [hsite] at hblocks
  rw [hempty] at htally
  obtain ⟨houtcomes, hmisses⟩ := Tally.outcomes_foldl_take blocks.flatten {}
  rw [← htally] at houtcomes hmisses
  exact ⟨row, blocks, hopen, htracks.now.trans hnow, hblocks, hstarted.tracks htracks, houtcomes,
    hmisses⟩

/-- Once the run has ended, its books agree. -/
theorem Exporter.CarriesOut.agrees {e : Exporter} {texts : List String} {s t u : Session}
    {l : Ledger} {script label : String} {mode : Mode}
    (h : e.CarriesOut texts (s.start script label mode) t) (hclosed : t.Closes u)
    (hledger : s.ledger = some l) (hlisted : l.Listed) :
    ∃ blocks row l', List.Forall₂ (e.ComesTo s.site.archive.keys) texts blocks ∧
      u.ledger = some l' ∧ row.id = u.run ∧
      l.Adds l' s.now row (blocks.flatten.map (Event.note u.run)) ∧
      l'.Agrees u.run s.now u.tally blocks.flatten := by
  obtain ⟨row, blocks, -, hstart, hblocks, hcarried, houtcomes, hmisses⟩ := h.exists_books hledger
  have hbooks := hcarried.closes hclosed
  have hnow : u.now = s.now := hclosed.now.trans hstart
  obtain ⟨l', hledger', -⟩ := hbooks.ledger
  obtain ⟨hadds, hagrees⟩ := hbooks.agrees hlisted rfl rfl (hclosed.counted h.counted)
    (hclosed.outcomes.trans houtcomes) (hclosed.misses.trans hmisses) hledger'
  rw [← hnow]
  exact ⟨blocks, _, l', hblocks, hledger', hbooks.id, hadds, hagrees⟩

/-! ### Sequences of runs -/

/-- A task for an exporter, and the session that it starts from: any, so also one with all that
earlier undertakings have left at the site. -/
structure Undertaking where
  exporter : Exporter
  session : Session
  task : Exporter.Task

namespace Undertaking

variable {l : Ledger}

/-- Carry out an undertaking with a ledger. -/
def carryOut (u : Undertaking) (l : Ledger) : Session × Tally :=
  u.exporter.carryOut u.task { u.session with ledger := some l }

/-- The ledger after an undertaking. -/
def ledger (u : Undertaking) (l : Ledger) : Ledger :=
  (u.carryOut l).1.ledger.getD l

/-- The ledger after undertakings that share it. -/
def ledgerAfter (us : List Undertaking) (l : Ledger) : Ledger :=
  us.foldl (fun l u => u.ledger l) l

/-- The ledger after an undertaking has its run on top, and the books of the run agree. -/
theorem agrees_carryOut (u : Undertaking) (hlisted : l.Listed) :
    ∃ blocks row, List.Forall₂ (u.exporter.ComesTo u.session.site.archive.keys) u.task.texts
        blocks ∧
      row.id = (u.carryOut l).1.run ∧
      l.Adds (u.ledger l) u.session.now row
        (blocks.flatten.map (Event.note (u.carryOut l).1.run)) ∧
      (u.ledger l).Agrees (u.carryOut l).1.run u.session.now (u.carryOut l).2 blocks.flatten := by
  obtain ⟨script, mode, t, hcarried, hclosed, hanswer⟩ :=
    u.exporter.closes_carryOut u.task { u.session with ledger := some l }
  obtain ⟨blocks, row, l', hblocks, hledger, hid, hadds, hagrees⟩ :=
    hcarried.agrees hclosed rfl hlisted
  have hlast : u.ledger l = l' := by
    rw [ledger, carryOut, hledger, Option.getD_some]
  rw [← hanswer] at hagrees
  rw [hlast]
  exact ⟨blocks, row, hblocks, hid, hadds, hagrees⟩

theorem listed_ledgerAfter (hlisted : l.Listed) (us : List Undertaking) :
    (ledgerAfter us l).Listed := by
  induction us generalizing l with
  | nil => exact hlisted
  | cons u us ih =>
      obtain ⟨blocks, row, -, -, hadds, -⟩ := u.agrees_carryOut hlisted
      exact ih (hadds.listed hlisted)

/-- Undertakings leave the row and the records of a run that is in the ledger already. -/
theorem run?_ledgerAfter (hlisted : l.Listed) (us : List Undertaking) {id : Int}
    {row : Ledger.Run} (h : l.run? id = some row) :
    (ledgerAfter us l).run? id = some row ∧ (ledgerAfter us l).recordsOf id = l.recordsOf id := by
  induction us generalizing l with
  | nil => exact ⟨h, rfl⟩
  | cons u us ih =>
      obtain ⟨blocks, own, -, -, hadds, -⟩ := u.agrees_carryOut hlisted
      -- the number of a later run was not in the ledger before it
      have hother : id ≠ own.id := by
        rintro rfl
        simp [hadds.run?_eq_none] at h
      have hkept := hadds.run?_other hother
      obtain ⟨hrow, hrecords⟩ := ih (hadds.listed hlisted) (hkept.trans h)
      exact ⟨hrow, hrecords.trans (hadds.recordsOf_other hother)⟩

/-- In every sequence of runs that share a ledger, each run gets a number that is new, and changes
neither the row nor the records of any other number. After all runs, its row and its records still
agree with the tally it returned: each pattern of its task, in order, came to one outcome for each
entry that it names or to a miss, and there is one record for each of these, in their order. -/
theorem books_agree (hlisted : l.Listed) (before : List Undertaking) (u : Undertaking)
    (after : List Undertaking) :
    let begun := ledgerAfter before l
    let run := (u.carryOut begun).1.run
    (begun.run? run = none ∧ begun.recordsOf run = []) ∧
      (∀ other : Int, other ≠ run → (u.ledger begun).run? other = begun.run? other ∧
        (u.ledger begun).recordsOf other = begun.recordsOf other) ∧
      ∃ blocks, List.Forall₂ (u.exporter.ComesTo u.session.site.archive.keys) u.task.texts blocks ∧
        (ledgerAfter (before ++ u :: after) l).Agrees run u.session.now (u.carryOut begun).2
          blocks.flatten := by
  intro begun run
  have hbegun : begun.Listed := listed_ledgerAfter hlisted before
  obtain ⟨blocks, row, hblocks, (hid : row.id = run), hadds, hagrees⟩ := u.agrees_carryOut hbegun
  have hlast : ledgerAfter (before ++ u :: after) l = ledgerAfter after (u.ledger begun) := by
    rw [ledgerAfter, List.foldl_append, List.foldl_cons]
    rfl
  obtain ⟨found, hfound, hended⟩ := hagrees.row
  obtain ⟨hrow, hrecords⟩ := run?_ledgerAfter (hadds.listed hbegun) after hfound
  have hnew := hadds.run?_eq_none
  have hnone := hadds.recordsOf_eq_nil hbegun
  rw [hid] at hnew hnone
  refine ⟨⟨hnew, hnone⟩, fun other hother => ?_, blocks, hblocks, ?_⟩
  · rw [← hid] at hother
    exact ⟨hadds.run?_other hother, hadds.recordsOf_other hother⟩
  · rw [hlast]
    exact { hagrees with
      row := ⟨found, hrow, hended⟩
      records := by rw [hrecords]; exact hagrees.records
      ordered := by rw [hrecords]; exact hagrees.ordered
      exported := by rw [hrecords]; exact hagrees.exported
      unsupported := by rw [hrecords]; exact hagrees.unsupported
      failed := by rw [hrecords]; exact hagrees.failed
      missed := by rw [hrecords]; exact hagrees.missed }

theorem books_agree_of_three :
    let patterns : Undertaking := ⟨.plainExporter, Exporter.emptySession, .patterns ["*"] .standard⟩
    let script : Undertaking :=
      ⟨.plainExporter, Exporter.folderSession [("a.ini", [49])] .standard,
        .script "s" ["[raw, text]", "a.*", "c.ini", "z*", "[nope"]⟩
    let begun := ledgerAfter [patterns] .empty
    let last := ledgerAfter [patterns, script, patterns] .empty
    Ledger.empty.Listed ∧ (begun.run? 2 = none ∧ begun.recordsOf 2 = []) ∧
      (∃ events, last.Agrees 2 ⟨0⟩ (script.carryOut begun).2 events) ∧
      last.recordsOf 2 =
        [⟨2, 2, "a.ini", "a.*", "success", "a.ini.txt\na.ini",
            some "6512bd43d9caa6e02c990b0a82652dca", none, ⟨0⟩⟩,
          ⟨3, 2, "c.ini", "c.ini", "failed", "", none,
            some "text: Entry not found: c.ini; raw: Entry not found: c.ini", ⟨0⟩⟩,
          ⟨4, 2, "z*", "z*", "miss", "", none, none, ⟨0⟩⟩] := by
  rw [Exporter.plainExporter_eq_spelled]
  intro patterns script begun last
  have hlisted : Ledger.empty.Listed := by decide
  have hrun : (script.carryOut begun).1.run = 2 := by decide +kernel
  obtain ⟨hnew, -, blocks, -, hagrees⟩ := books_agree hlisted [patterns] script [patterns]
  rw [hrun] at hnew hagrees
  exact ⟨hlisted, hnew, ⟨blocks.flatten, hagrees⟩, by decide +kernel⟩

end Undertaking

end ArchiveExport
