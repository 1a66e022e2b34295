import ArchiveExport.Proofs.Export.Recorded
import ArchiveExport.Proofs.Export.Tallied
import ArchiveExport.Proofs.Ledger.Rows

/-!
# Events of a run

All that a run takes note of is a list of events: an outcome of a pattern, or a pattern that names
nothing. Each event is counted in the tally and noted in the ledger at once, so both books are known
from the events alone, with any number of workers.
-/

namespace ArchiveExport

/-- What a run takes note of. -/
inductive Event where
  | outcome (pattern : String) (o : Outcome)
  | miss (pattern : String)

namespace Event

/-- The outcome that an event tells of. -/
def outcome? : Event → Option Outcome
  | outcome _ o => some o
  | miss _ => none

/-- The pattern that an event tells of as missed. -/
def missed? : Event → Option String
  | outcome _ _ => none
  | miss pattern => some pattern

/-- What the ledger notes about an event of a run. -/
def note (run : Nat) : Event → Ledger.Note
  | outcome pattern o => Exporter.noteOf run pattern o
  | miss pattern => { run, identifier := pattern, pattern, status := "miss" }

theorem run_note (run : Nat) (event : Event) : (event.note run).run = run := by
  cases event <;> rfl

end Event

namespace Tally

variable {t : Tally}

/-- Count an event. -/
def take (t : Tally) : Event → Tally
  | .outcome _ o => t.count o
  | .miss pattern => t.miss pattern

theorem Counted.take (h : t.Counted) (event : Event) : (t.take event).Counted := by
  cases event with
  | outcome pattern o => exact h.count o
  | miss pattern => exact h.miss pattern

/-- The outcomes and the misses of a tally are those of its events, in order. -/
theorem outcomes_foldl_take (events : List Event) (t : Tally) :
    (events.foldl take t).outcomes = t.outcomes ++ events.filterMap Event.outcome? ∧
      (events.foldl take t).misses = t.misses ++ events.filterMap Event.missed? := by
  induction events generalizing t with
  | nil => simp
  | cons event events ih =>
      obtain ⟨houtcomes, hmisses⟩ := ih (t.take event)
      rw [List.foldl_cons, houtcomes, hmisses]
      cases event with
      | outcome pattern o =>
          obtain ⟨hcounted, hmissed, -, -⟩ := t.outcomes_count o
          simp [List.filterMap_cons, take, hcounted, hmissed, Event.outcome?, Event.missed?]
      | miss pattern =>
          simp [List.filterMap_cons, take, Tally.miss, Event.outcome?, Event.missed?]

theorem Counted.foldl_take (h : t.Counted) (events : List Event) :
    (events.foldl Tally.take t).Counted := by
  induction events generalizing t with
  | nil => exact h
  | cons event events ih => exact ih (h.take event)

end Tally

namespace Session

variable {s t u : Session} {events later : List Event}

/-- A session has taken note of events, and its archive has the same keys as before. -/
structure Tracks (s t : Session) (events : List Event) : Prop where
  tally : t.tally = events.foldl Tally.take s.tally
  ledger : t.ledger = s.ledger.map fun l => l.recordAll s.now (events.map (Event.note s.run))
  run : t.run = s.run
  now : t.now = s.now
  keys : t.site.archive.keys = s.site.archive.keys

/-- Where tally and ledger are as before, nothing was taken note of. -/
theorem Tracks.of_unchanged (htally : t.tally = s.tally) (hledger : t.ledger = s.ledger)
    (hrun : t.run = s.run) (hnow : t.now = s.now)
    (hkeys : t.site.archive.keys = s.site.archive.keys) : s.Tracks t [] where
  tally := htally
  ledger := by rw [hledger]; exact Option.map_id'.symm
  run := hrun
  now := hnow
  keys := hkeys

theorem Tracks.refl (s : Session) : s.Tracks s [] :=
  .of_unchanged rfl rfl rfl rfl rfl

theorem Tracks.trans (h : s.Tracks t events) (h' : t.Tracks u later) :
    s.Tracks u (events ++ later) where
  tally := by rw [h'.tally, h.tally, List.foldl_append]
  ledger := by
    rw [h'.ledger, h.ledger, h.now, h.run, Option.map_map, List.map_append]
    congr 1
    funext l
    exact (l.recordAll_append s.now _ _).symm
  run := h'.run.trans h.run
  now := h'.now.trans h.now
  keys := h'.keys.trans h.keys

theorem tracks_tell (s : Session) (level : Level) (text : String) :
    s.Tracks (s.tell level text) [] :=
  .of_unchanged rfl rfl rfl rfl rfl

theorem tracks_perform (s : Session) {α : Type} (job : Job α) : s.Tracks (s.perform job).2 [] :=
  .of_unchanged rfl rfl rfl rfl (Job.keys_run job s.site)

end Session

namespace Exporter

variable {e : Exporter}

/-! ### Entries -/

theorem tracks_settle (pattern : String) (mode : Mode) (current total : Nat) (name : String)
    (o : Outcome) (s : Session) :
    s.Tracks (settle pattern mode current total name o s) [.outcome pattern o] where
  tally := rfl
  ledger := rfl
  run := rfl
  now := rfl
  keys := rfl

/-- Outcomes tell of entries: each names its own one, in order. -/
def OutcomesOf (entries : List Entry) (outcomes : List Outcome) : Prop :=
  outcomes.map Outcome.identifier = entries.map Entry.identifier

theorem tracks_exportInTurn (e : Exporter) (pattern : String) (mode : Mode) (total current : Nat)
    (entries : List Entry) (s : Session) :
    ∃ outcomes, OutcomesOf entries outcomes ∧
      s.Tracks (exportInTurn e pattern mode total current entries s)
        (outcomes.map (.outcome pattern)) := by
  induction entries generalizing current s with
  | nil => exact ⟨[], rfl, .refl s⟩
  | cons entry entries ih =>
      have hperformed := s.tracks_perform (e.dispatcher.dispatch entry mode)
      have hsettled := tracks_settle pattern mode current total entry.identifier
        (s.perform (e.dispatcher.dispatch entry mode)).1
        (s.perform (e.dispatcher.dispatch entry mode)).2
      have hname : (s.perform (e.dispatcher.dispatch entry mode)).1.identifier =
          entry.identifier := (e.dispatcher.outcome_dispatch entry mode s.site).1
      -- the outcome is taken note of before the next entry is exported
      obtain ⟨outcomes, hnames, hrest⟩ := ih (current + 1) (settle pattern mode current total
        entry.identifier (s.perform (e.dispatcher.dispatch entry mode)).1
        (s.perform (e.dispatcher.dispatch entry mode)).2)
      refine ⟨(s.perform (e.dispatcher.dispatch entry mode)).1 :: outcomes, ?_, ?_⟩
      · exact congrArg₂ List.cons hname hnames
      · exact (hperformed.trans hsettled).trans hrest

theorem tracks_exportAll (e : Exporter) (mode : Mode) (entries : List Entry) (s : Session) :
    OutcomesOf entries ((exportAll e mode entries s).1.map Prod.snd) ∧
      s.Tracks (exportAll e mode entries s).2 [] := by
  induction entries generalizing s with
  | nil => exact ⟨rfl, .refl s⟩
  | cons entry entries ih =>
      have hperformed := s.tracks_perform (e.dispatcher.dispatch entry mode)
      have hname : (s.perform (e.dispatcher.dispatch entry mode)).1.identifier =
          entry.identifier := (e.dispatcher.outcome_dispatch entry mode s.site).1
      obtain ⟨hnames, hrest⟩ := ih (s.perform (e.dispatcher.dispatch entry mode)).2
      exact ⟨congrArg₂ List.cons hname hnames, hperformed.trans hrest⟩

theorem tracks_settleAll (pattern : String) (mode : Mode) (total current : Nat)
    (outcomes : List (Entry × Outcome)) (s : Session) :
    s.Tracks (settleAll pattern mode total current outcomes s)
      ((outcomes.map Prod.snd).map (.outcome pattern)) := by
  induction outcomes generalizing current s with
  | nil => exact .refl s
  | cons item outcomes ih =>
      exact (tracks_settle pattern mode current total item.1.identifier item.2 s).trans
        (ih (current + 1) _)

/-- With any number of workers, there is one outcome for each entry, in order. -/
theorem tracks_exportEntries (e : Exporter) (pattern : String) (entries : List Entry)
    (s : Session) :
    ∃ outcomes, OutcomesOf entries outcomes ∧
      s.Tracks (exportEntries e pattern entries s) (outcomes.map (.outcome pattern)) := by
  simp only [exportEntries]
  split
  · exact tracks_exportInTurn e pattern s.mode entries.length 1 entries s
  · obtain ⟨hnames, hexported⟩ := tracks_exportAll e s.mode entries s
    exact ⟨_, hnames, hexported.trans (tracks_settleAll pattern s.mode entries.length 1 _ _)⟩

/-! ### Patterns -/

/-- What a pattern comes to among some keys: one outcome for each entry that it names, in order, or
a miss if it names nothing. -/
def ComesTo (e : Exporter) (keys : List String) (text : String) (events : List Event) : Prop :=
  let pattern := e.dispatcher.normalize text
  match Entry.resolve e.suffixes pattern keys with
  | [] => events = [.miss pattern]
  | entries => ∃ outcomes, OutcomesOf entries outcomes ∧ events = outcomes.map (.outcome pattern)

theorem tracks_exportPattern (e : Exporter) (text : String) (line : Int) (s : Session) :
    ∃ events, e.ComesTo s.site.archive.keys text events ∧
      s.Tracks (exportPattern e text line s) events := by
  simp only [exportPattern, ComesTo]
  cases hentries : Entry.resolve e.suffixes (e.dispatcher.normalize text) s.site.archive.keys with
  | nil =>
      exact ⟨_, rfl, ⟨rfl, rfl, rfl, rfl, rfl⟩⟩
  | cons entry entries =>
      have htold : ∀ message, ∃ outcomes, OutcomesOf (entry :: entries) outcomes ∧
          s.Tracks (exportEntries e (e.dispatcher.normalize text) (entry :: entries)
            (s.tell .info message))
            (outcomes.map (.outcome (e.dispatcher.normalize text))) := by
        intro message
        obtain ⟨outcomes, hnames, hexported⟩ := tracks_exportEntries e
          (e.dispatcher.normalize text) (entry :: entries) (s.tell .info message)
        exact ⟨outcomes, hnames, (s.tracks_tell .info message).trans hexported⟩
      obtain ⟨outcomes, hnames, htracks⟩ := htold _
      exact ⟨_, ⟨outcomes, hnames, rfl⟩, htracks⟩

/-- A session has carried out patterns: each came to its events, and these were taken note of. -/
def CarriesOut (e : Exporter) (texts : List String) (s t : Session) : Prop :=
  ∃ blocks, List.Forall₂ (e.ComesTo s.site.archive.keys) texts blocks ∧
    s.Tracks t blocks.flatten

theorem CarriesOut.trans {s t u : Session} {texts more : List String}
    (h : e.CarriesOut texts s t) (h' : e.CarriesOut more t u) :
    e.CarriesOut (texts ++ more) s u := by
  obtain ⟨blocks, hblocks, htracks⟩ := h
  obtain ⟨blocks', hblocks', htracks'⟩ := h'
  rw [htracks.keys] at hblocks'
  refine ⟨blocks ++ blocks', List.rel_append hblocks hblocks', ?_⟩
  rw [List.flatten_append]
  exact htracks.trans htracks'

theorem CarriesOut.of_tracks {s t : Session} (h : s.Tracks t []) : e.CarriesOut [] s t :=
  ⟨[], .nil, h⟩

theorem carriesOut_exportPattern (e : Exporter) (text : String) (line : Int) (s : Session) :
    e.CarriesOut [text] s (exportPattern e text line s) := by
  obtain ⟨events, hcomes, htracks⟩ := tracks_exportPattern e text line s
  exact ⟨[events], .cons hcomes .nil, by rwa [List.flatten_singleton]⟩

end Exporter

/-- The pattern that a directive orders. -/
def Directive.ordered? : Directive → Option String
  | pattern text _ => some text
  | comment _ _ => none
  | mode _ _ => none

namespace Exporter

theorem carriesOut_obey (e : Exporter) (directive : Directive) (s : Session) :
    e.CarriesOut directive.ordered?.toList s (obey e s directive) := by
  cases directive with
  | comment text line => exact .of_tracks (.refl s)
  | mode active line => exact .of_tracks (.of_unchanged rfl rfl rfl rfl rfl)
  | pattern text line => exact carriesOut_exportPattern e text line s

/-- What single steps carry out, all of them carry out in turn. -/
theorem carriesOut_foldl {α : Type} {e : Exporter} {step : Session → α → Session}
    {ordered? : α → Option String}
    (hstep : ∀ s a, e.CarriesOut (ordered? a).toList s (step s a)) (actions : List α)
    (s : Session) : e.CarriesOut (actions.filterMap ordered?) s (actions.foldl step s) := by
  induction actions generalizing s with
  | nil => exact .of_tracks (.refl s)
  | cons a actions ih =>
      have hboth := (hstep s a).trans (ih (step s a))
      cases hordered : ordered? a <;> simpa [hordered] using hboth

end Exporter

end ArchiveExport
