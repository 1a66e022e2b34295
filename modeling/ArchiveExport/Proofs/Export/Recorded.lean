import ArchiveExport.Proofs.Export.Files
import ArchiveExport.Proofs.Export.Dispatch
import ArchiveExport.Proofs.Export.Script
import ArchiveExport.Proofs.Ledger.Records

/-!
# What a run writes and records

Whatever a session does within a run, it adds writes to the disk and notes to the ledger, and each
note tells of its own writes. Several workers note what they have done later, but in the same order.
-/

namespace ArchiveExport

/-- The digest of all octets of some writes, if there are any. -/
def digestOf (writes : List (String × Bytes)) : Option String :=
  if writes = [] then none else some (Checksum.Md5.hex (writes.flatMap Prod.snd))

/-- An outcome tells of some writes: it lists their paths and has their digest. -/
structure Outcome.Tells (o : Outcome) (writes : List (String × Bytes)) : Prop where
  outputs : o.outputs = writes.map Prod.fst
  digest : o.digest = digestOf writes

/-- A note of a run tells of some writes. -/
structure Ledger.Note.Tells (n : Ledger.Note) (run : Nat) (writes : List (String × Bytes)) :
    Prop where
  run : n.run = run
  outputs : n.outputs = writes.map Prod.fst
  digest : n.digest = digestOf writes

/-- A record tells of some writes: it holds their paths, one to a line, and their digest. -/
structure Ledger.Record.Tells (r : Ledger.Record) (writes : List (String × Bytes)) : Prop where
  outputs : r.outputs = Text.join "\n" (writes.map Prod.fst)
  digest : r.digest = digestOf writes

theorem Ledger.Record.Keeps.tells {r : Ledger.Record} {n : Ledger.Note} {run : Nat}
    {writes : List (String × Bytes)} (h : r.Keeps n) (hnote : n.Tells run writes) :
    r.Tells writes where
  outputs := by rw [h.outputs, hnote.outputs]
  digest := by rw [h.digest, hnote.digest]

namespace Session

variable {s t u : Session} {writes later : List (String × Bytes)} {notes others : List Ledger.Note}
  {done more : List (List (String × Bytes))}

/-- A session has added writes to the disk and notes to the ledger. -/
structure Carried (s t : Session) (writes : List (String × Bytes)) (notes : List Ledger.Note) :
    Prop where
  wrote : s.site.Wrote s.log writes t.site
  noted : t.ledger = s.ledger.map fun l => l.recordAll s.now notes
  run : t.run = s.run
  now : t.now = s.now
  log : t.log = s.log

theorem Carried.of_noted (hsite : s.site.Noted s.log t.site) (hledger : t.ledger = s.ledger)
    (hrun : t.run = s.run) (hnow : t.now = s.now) (hlog : t.log = s.log) : s.Carried t [] [] where
  wrote := .of_noted hsite
  noted := by rw [hledger]; exact Option.map_id'.symm
  run := hrun
  now := hnow
  log := hlog

theorem Carried.trans (hroot : s.site.sink.root.Normal) (h : s.Carried t writes notes)
    (h' : t.Carried u later others) : s.Carried u (writes ++ later) (notes ++ others) where
  wrote := h.wrote.trans hroot (h.log ▸ h'.wrote)
  noted := by
    rw [h'.noted, h.noted, h.now, Option.map_map]
    congr 1
    funext l
    exact (l.recordAll_append s.now notes others).symm
  run := h'.run.trans h.run
  now := h'.now.trans h.now
  log := h'.log.trans h.log

/-- A session has added writes to the disk, and for each lot of them a note to the ledger. -/
def Recorded (s t : Session) (done : List (List (String × Bytes))) : Prop :=
  ∃ notes, List.Forall₂ (fun writes n => Ledger.Note.Tells n s.run writes) done notes ∧
    s.Carried t done.flatten notes

theorem Recorded.of_carried (h : s.Carried t [] []) : s.Recorded t [] :=
  ⟨[], .nil, h⟩

theorem Recorded.refl (s : Session) : s.Recorded s [] :=
  .of_carried (.of_noted (.refl _ _) rfl rfl rfl rfl)

theorem Recorded.trans (hroot : s.site.sink.root.Normal) (h : s.Recorded t done)
    (h' : t.Recorded u more) : s.Recorded u (done ++ more) := by
  obtain ⟨notes, htold, hcarried⟩ := h
  obtain ⟨others, htold', hcarried'⟩ := h'
  rw [hcarried.run] at htold'
  refine ⟨notes ++ others, List.rel_append htold htold', ?_⟩
  rw [List.flatten_append]
  exact hcarried.trans hroot hcarried'

theorem Recorded.root (h : s.Recorded t done) : t.site.sink.root = s.site.sink.root := by
  obtain ⟨notes, -, hcarried⟩ := h
  exact hcarried.wrote.root

/-! ### Single notes -/

theorem carried_tell (s : Session) (level : Level) (text : String) :
    s.Carried (s.tell level text) [] [] :=
  .of_noted (noted_tell s level text) rfl rfl rfl rfl

theorem carried_perform (hroot : s.site.sink.root.Normal) {α : Type} (job : Job α) :
    s.Carried (s.perform job).2 (job.writes s.site) [] where
  wrote := job.wrote_run hroot s.log
  noted := Option.map_id'.symm
  run := rfl
  now := rfl
  log := rfl

/-! ### Runs of the ledger -/

/-- The second session has a run in its ledger that began with the first one, and the records of
the run tell of all that was written since. -/
structure Booked (s t : Session) (done : List (List (String × Bytes))) (l : Ledger)
    (r : Ledger.Run) : Prop where
  wrote : s.site.Wrote s.log done.flatten t.site
  log : t.log = s.log
  ledger : t.ledger = some l
  listed : l.Listed
  run : l.run? t.run = some r
  id : r.id = t.run
  folder : r.outputFolder = s.site.sink.root.text
  records : List.Forall₂ (fun writes record => Ledger.Record.Tells record writes) done
    (l.recordsOf t.run)

variable {l : Ledger} {r : Ledger.Run}

theorem booked_start (hledger : s.ledger = some l) (hlisted : l.Listed) (script label : String)
    (mode : Mode) : ∃ l r, s.Booked (s.start script label mode) [] l r := by
  obtain ⟨hsite, hlog, -, -⟩ := s.start_eq script label mode
  have hledger' : (s.start script label mode).ledger =
      some (l.start s.now script label s.site.sink.root.text).1 := by
    simp only [start, hledger]
  have hrun : (s.start script label mode).run =
      (l.start s.now script label s.site.sink.root.text).2 := by
    simp only [start, hledger]
  have hfound := l.run?_start s.now script label s.site.sink.root.text
  have hnone := Ledger.recordsOf_start hlisted s.now script label s.site.sink.root.text
  rw [← hrun] at hfound hnone
  refine ⟨_, _, ?_, hlog, hledger', Ledger.listed_start hlisted _ _ _, hfound, rfl, rfl, ?_⟩
  · rw [hsite]
    exact .refl _ _
  · rw [hnone]
    exact .nil

theorem Booked.record (hroot : s.site.sink.root.Normal) (h : s.Booked t done l r)
    (hrecorded : t.Recorded u more) : ∃ l, s.Booked u (done ++ more) l r := by
  obtain ⟨notes, htold, hcarried⟩ := hrecorded
  have hnotes : ∀ n ∈ notes, n.run = t.run := by
    intro n hn
    obtain ⟨writes, -, htells⟩ := exists_of_forall₂ htold hn
    exact htells.run
  obtain ⟨added, hadded, hkeeps⟩ := l.recordsOf_recordAll t.now hnotes
  have hrun : ∃ r ∈ l.runs, r.id = t.run := ⟨r, List.mem_of_find?_eq_some h.run, h.id⟩
  refine ⟨l.recordAll t.now notes, ?_, hcarried.log.trans h.log, ?_,
    Ledger.listed_recordAll h.listed hrun hnotes, ?_, h.id.trans hcarried.run.symm, h.folder, ?_⟩
  · rw [List.flatten_append]
    exact h.wrote.trans hroot (h.log ▸ hcarried.wrote)
  · rw [hcarried.noted, h.ledger, Option.map_some]
  · rw [hcarried.run, Ledger.run?_recordAll, h.run]
  · rw [hcarried.run, hadded]
    exact List.rel_append h.records
      (forall₂_comp (fun _ _ _ htells hkept => hkept.tells htells) htold hkeeps)

theorem Booked.tell (hroot : s.site.sink.root.Normal) (h : s.Booked t done l r) (level : Level)
    (text : String) : s.Booked (t.tell level text) done l r := by
  have hwrote := h.wrote.trans hroot (.of_noted (h.log ▸ noted_tell t level text))
  rw [List.append_nil] at hwrote
  exact { h with wrote := hwrote }

theorem Booked.finish (hroot : s.site.sink.root.Normal) (h : s.Booked t done l r) :
    ∃ l r, s.Booked t.finish done l r := by
  have htold := h.tell hroot .info t.tally.summaryLine
  obtain ⟨hrecords, -, hruns⟩ := l.finish_getD t.now t.run t.tally.result
  obtain ⟨hid, hfolder⟩ := r.ended_eq t.now t.run t.tally.result
  refine ⟨(l.finish t.now t.run t.tally.result).toOption.getD l,
    r.ended t.now t.run t.tally.result, ?_⟩
  simp only [Session.finish, htold.ledger]
  exact { htold with
    ledger := rfl
    listed := Ledger.listed_finish h.listed _ _
    run := hruns r h.run
    id := hid.trans h.id
    folder := hfolder.trans h.folder
    records := by
      rw [Ledger.recordsOf, hrecords]
      exact h.records }

end Session

namespace Exporter

open Session (Carried Recorded)

variable {e : Exporter} {s : Session}

/-! ### Entries -/

/-- The note of an outcome. -/
def noteOf (run : Nat) (pattern : String) (o : Outcome) : Ledger.Note where
  run := run
  identifier := o.identifier
  pattern := pattern
  status := o.status.label
  outputs := o.outputs
  digest := o.digest
  cause := o.cause

theorem tells_noteOf {o : Outcome} {writes : List (String × Bytes)} (h : o.Tells writes)
    (run : Nat) (pattern : String) : (noteOf run pattern o).Tells run writes :=
  ⟨rfl, h.outputs, h.digest⟩

theorem tells_dispatch (d : Dispatcher) (entry : Entry) (mode : Mode) (site : Site) :
    ((d.dispatch entry mode).run site).1.Tells ((d.dispatch entry mode).writes site) := by
  obtain ⟨-, houtputs, hdigest⟩ := d.outcome_dispatch entry mode site
  exact ⟨houtputs, hdigest⟩

theorem carried_settle (pattern : String) (mode : Mode) (current total : Nat) (name : String)
    (o : Outcome) (s : Session) :
    s.Carried (settle pattern mode current total name o s) [] [noteOf s.run pattern o] where
  wrote := .of_noted (settle_eq pattern mode current total name o s).1
  noted := rfl
  run := rfl
  now := rfl
  log := rfl

theorem recorded_exportInTurn (hroot : s.site.sink.root.Normal) (pattern : String) (mode : Mode)
    (total current : Nat) (entries : List Entry) :
    ∃ done, s.Recorded (exportInTurn e pattern mode total current entries s) done := by
  induction entries generalizing current s with
  | nil => exact ⟨[], .refl s⟩
  | cons entry entries ih =>
      have hperformed := Session.carried_perform hroot (e.dispatcher.dispatch entry mode)
      have hsettled := carried_settle pattern mode current total entry.identifier
        (s.perform (e.dispatcher.dispatch entry mode)).1
        (s.perform (e.dispatcher.dispatch entry mode)).2
      have hfirst := hperformed.trans hroot hsettled
      rw [List.append_nil, List.nil_append] at hfirst
      obtain ⟨done, hrest⟩ := ih (hfirst.wrote.root ▸ hroot) (current + 1)
      have hrecorded : s.Recorded _ [(e.dispatcher.dispatch entry mode).writes s.site] :=
        ⟨_, .cons (tells_noteOf (tells_dispatch e.dispatcher entry mode s.site) _ pattern) .nil,
          by rwa [List.flatten_singleton]⟩
      exact ⟨_, hrecorded.trans hroot hrest⟩

theorem carried_exportAll (hroot : s.site.sink.root.Normal) (mode : Mode) (entries : List Entry) :
    ∃ done, List.Forall₂ (fun writes item => Outcome.Tells item.2 writes) done
        (exportAll e mode entries s).1 ∧
      s.Carried (exportAll e mode entries s).2 done.flatten [] := by
  induction entries generalizing s with
  | nil => exact ⟨[], .nil, .of_noted (.refl _ _) rfl rfl rfl rfl⟩
  | cons entry entries ih =>
      have hperformed := Session.carried_perform hroot (e.dispatcher.dispatch entry mode)
      obtain ⟨done, htold, hrest⟩ := ih (hperformed.wrote.root ▸ hroot)
      exact ⟨_, .cons (tells_dispatch e.dispatcher entry mode s.site) htold,
        hperformed.trans hroot hrest⟩

theorem carried_settleAll (pattern : String) (mode : Mode) (total current : Nat)
    (outcomes : List (Entry × Outcome)) (hroot : s.site.sink.root.Normal) :
    s.Carried (settleAll pattern mode total current outcomes s) []
      (outcomes.map fun item => noteOf s.run pattern item.2) := by
  induction outcomes generalizing current s with
  | nil => exact .of_noted (.refl _ _) rfl rfl rfl rfl
  | cons item outcomes ih =>
      have hsettled := carried_settle pattern mode current total item.1.identifier item.2 s
      have hrest := ih (s := settle pattern mode current total item.1.identifier item.2 s)
        (current + 1) (hsettled.wrote.root ▸ hroot)
      exact hsettled.trans hroot hrest

/-- With any number of workers, each entry has a note that tells of what was written for it. -/
theorem recorded_exportEntries (hroot : s.site.sink.root.Normal) (pattern : String)
    (entries : List Entry) : ∃ done, s.Recorded (exportEntries e pattern entries s) done := by
  simp only [exportEntries]
  split
  · exact recorded_exportInTurn hroot pattern s.mode entries.length 1 entries
  · obtain ⟨done, htold, hexported⟩ := carried_exportAll (e := e) hroot s.mode entries
    have hroot' := hexported.wrote.root ▸ hroot
    have hsettled := carried_settleAll pattern s.mode entries.length 1
      (exportAll e s.mode entries s).1 hroot'
    have hboth := hexported.trans hroot hsettled
    rw [List.append_nil, List.nil_append, hexported.run] at hboth
    refine ⟨done, _, ?_, hboth⟩
    rw [List.forall₂_map_right_iff]
    exact htold.imp fun writes item h => tells_noteOf h s.run pattern

/-! ### Runs -/

/-- Whatever a pattern names, each note tells of what was written for it. -/
theorem recorded_exportPattern (hroot : s.site.sink.root.Normal) (text : String) (line : Int) :
    ∃ done, s.Recorded (exportPattern e text line s) done := by
  have htold : ∀ message entries, ∃ done, s.Recorded
      (exportEntries e (e.dispatcher.normalize text) entries (s.tell .info message)) done := by
    intro message entries
    have hfirst := Recorded.of_carried (Session.carried_tell s .info message)
    obtain ⟨done, hexported⟩ := recorded_exportEntries (e := e) (s := s.tell .info message) hroot
      (e.dispatcher.normalize text) entries
    exact ⟨done, hfirst.trans hroot hexported⟩
  simp only [exportPattern]
  split
  · have hmissed := Session.noted_tell s .warning
      (place line ++ Entry.missMessage (e.dispatcher.normalize text))
    exact ⟨[[]], _, .cons ⟨rfl, rfl, rfl⟩ .nil, .of_noted hmissed, rfl, rfl, rfl, rfl⟩
  · exact htold _ _

theorem recorded_obey (hroot : s.site.sink.root.Normal) (directive : Directive) :
    ∃ done, s.Recorded (obey e s directive) done := by
  cases directive with
  | comment => exact ⟨[], .refl s⟩
  | mode mode line =>
      have htold := Session.noted_tell { s with mode } .info
        s!"{place line}export mode {mode.header}"
      exact ⟨[], .of_carried (.of_noted htold rfl rfl rfl rfl)⟩
  | pattern text line => exact recorded_exportPattern hroot text line

/-- What single steps record, all of them record in turn. -/
theorem recorded_foldl {α : Type} {step : Session → α → Session}
    (hstep : ∀ s : Session, s.site.sink.root.Normal → ∀ a, ∃ done, s.Recorded (step s a) done)
    (hroot : s.site.sink.root.Normal) (actions : List α) :
    ∃ done, s.Recorded (actions.foldl step s) done := by
  induction actions generalizing s with
  | nil => exact ⟨[], .refl s⟩
  | cons a actions ih =>
      obtain ⟨done, hfirst⟩ := hstep s hroot a
      obtain ⟨more, hrest⟩ := ih (hfirst.root ▸ hroot)
      exact ⟨done ++ more, hfirst.trans hroot hrest⟩

/-- The sessions that runs of an exporter end in. -/
inductive Runs (e : Exporter) (s : Session) : Session → Prop
  | lines (script : String) (lines : List String) (textFault : Option Text.Charset.Fault) :
      Runs e s (e.runLines script lines textFault s).1
  | patterns (texts : List String) (mode : Mode) : Runs e s (e.runPatterns texts mode s).1

/-- A run that began and has recorded what it did is booked. -/
theorem booked_foldl {α : Type} {step : Session → α → Session} {l : Ledger}
    (hstep : ∀ s : Session, s.site.sink.root.Normal → ∀ a, ∃ done, s.Recorded (step s a) done)
    (hroot : s.site.sink.root.Normal) (hledger : s.ledger = some l) (hlisted : l.Listed)
    (script label : String) (mode : Mode) (actions : List α) :
    ∃ done l r, s.Booked (actions.foldl step (s.start script label mode)) done l r := by
  obtain ⟨l, r, hstarted⟩ := Session.booked_start hledger hlisted script label mode
  obtain ⟨done, hrecorded⟩ := recorded_foldl hstep (hstarted.wrote.root ▸ hroot) actions
  obtain ⟨l', hbooked⟩ := hstarted.record hroot hrecorded
  exact ⟨_, l', r, hbooked⟩

/-- However a run ends, its records tell of all that it wrote. -/
theorem Runs.exists_booked {t : Session} {l : Ledger} (h : e.Runs s t)
    (hroot : s.site.sink.root.Normal) (hledger : s.ledger = some l) (hlisted : l.Listed) :
    ∃ done l r, s.Booked t done l r := by
  cases h with
  | lines script lines textFault =>
      obtain ⟨done, l, r, hbooked⟩ := booked_foldl (fun _ => recorded_obey (e := e)) hroot hledger
        hlisted script e.label e.mode (Directive.parseLines lines).1
      cases hfault : (Directive.parseLines lines).2 with
      | some fault =>
          have hstopped := hbooked.tell hroot .error s!"{script}: {fault.message}"
          simp only [runLines, hfault]
          exact ⟨done, Session.Booked.finish hroot { hstopped with }⟩
      | none =>
          simp only [runLines, hfault]
          cases textFault with
          | some fault => exact ⟨done, l, r, hbooked⟩
          | none => exact ⟨done, hbooked.finish hroot⟩
  | patterns texts mode =>
      have hstep : ∀ s : Session, s.site.sink.root.Normal → ∀ text, ∃ done,
          s.Recorded (if text = "" then s else exportPattern e text 0 s) done := by
        intro s hroot text
        split
        · exact ⟨[], .refl s⟩
        · exact recorded_exportPattern hroot text 0
      obtain ⟨done, l, r, hbooked⟩ := booked_foldl hstep hroot hledger hlisted "<patterns>" e.label
        mode (texts.map Text.trim)
      exact ⟨done, hbooked.finish hroot⟩

end Exporter

end ArchiveExport
