import ArchiveExport.Proofs.Export.Events
import ArchiveExport.Proofs.Export.Pattern
import ArchiveExport.Proofs.Export.Sharing

/-!
# Entries that are exported at a time

Several workers export entries at a time, and what each of them reads and writes comes between what
the others do. Where the targets of the entries are apart, the order makes no difference: however
their accesses interleave, the outcomes and the disk are those of a dispatch in turn.
-/

namespace ArchiveExport

variable {α : Type} {log : Option Path} {start site last : Site} {values : List α}
  {jobs : List (Job α)} {lanes : List (Lane α)}

/-! ### Interleavings -/

/-- Some jobs share a site. Step by step one of them has its next access answered, or a note is
taken, until each of them has its value. -/
inductive Interleaved (log : Option Path) : List (Job α) → Site → List α → Site → Prop
  | done (values : List α) (site : Site) : Interleaved log (values.map .done) site values site
  | access {before after : List (Job α)} {job : Job α} {values : List α} {site last : Site}
      (hrest : Interleaved log (before ++ (job.advance site).1 :: after) (job.advance site).2
        values last) :
      Interleaved log (before ++ job :: after) site values last
  | note {jobs : List (Job α)} {values : List α} {site noted last : Site}
      (hnoted : site.Noted log noted) (hrest : Interleaved log jobs noted values last) :
      Interleaved log jobs site values last

theorem Lane.run_advance (lane : Lane α) :
    lane.advance.job.run lane.advance.site = lane.job.run lane.site :=
  lane.job.run_advance lane.site

theorem Lane.eq_finish_of_done {lane : Lane α} {value : α} (h : lane.job = .done value) :
    lane.finish = lane ∧ (lane.job.run lane.site).1 = value := by
  obtain ⟨targets, job, own⟩ := lane
  obtain rfl : job = .done value := h
  exact ⟨rfl, rfl⟩

theorem Lane.map_finish_of_done (h : lanes.map Lane.job = values.map .done) :
    lanes.map Lane.finish = lanes ∧
      values = lanes.map fun lane => (lane.job.run lane.site).1 := by
  induction lanes generalizing values with
  | nil =>
      rw [List.map_nil, eq_comm, List.map_eq_nil_iff] at h
      exact ⟨rfl, h⟩
  | cons lane lanes ih =>
      rw [List.map_cons, eq_comm, List.map_eq_cons_iff] at h
      obtain ⟨value, rest, rfl, hvalue, hrest⟩ := h
      obtain ⟨hfinish, hrun⟩ := Lane.eq_finish_of_done hvalue.symm
      obtain ⟨hfinishes, hruns⟩ := ih hrest.symm
      rw [List.map_cons, List.map_cons, hfinish, hfinishes, hrun, ← hruns]
      exact ⟨rfl, rfl⟩

/-- However jobs interleave, each gets the value that it gets on its lane, and the lanes come to
their ends with the site. -/
theorem Interleaved.shared (h : Interleaved log jobs site values last)
    (hroot : start.sink.root.Normal) (hlog : ∀ noted ∈ log, ¬ start.archive.Uses noted)
    (hjobs : jobs = lanes.map Lane.job) (hshared : start.Shared log lanes site) :
    values = (lanes.map fun lane => (lane.job.run lane.site).1) ∧
      start.Shared log (lanes.map Lane.finish) last := by
  induction h generalizing lanes with
  | done values site =>
      obtain ⟨hfinish, hvalues⟩ := Lane.map_finish_of_done hjobs.symm
      rw [hfinish]
      exact ⟨hvalues, hshared⟩
  | @access before after job values site last _ ih =>
      -- the job that goes on is that of a lane, which goes on alike
      obtain ⟨front, rest, rfl, rfl, hrest⟩ := List.map_eq_append_iff.mp hjobs.symm
      obtain ⟨lane, back, rfl, rfl, rfl⟩ := List.map_eq_cons_iff.mp hrest
      obtain ⟨hjob, hnext⟩ := hshared.advance hroot
      have hends := ih (by rw [hjob, List.map_append, List.map_cons]) hnext
      simpa only [List.map_append, List.map_cons, Lane.finish_advance, Lane.run_advance] using hends
  | note hnoted _ ih => exact ih hjobs (hshared.noted hnoted hlog)

/-- The lane of a job that has not begun. -/
def Lane.of (start : Site) (job : Job α) : Lane α := ⟨job.targets start, job, start⟩

section Apart

variable (hunchanging : start.Alike start)
  (hunused : ∀ job ∈ jobs, ∀ w ∈ job.writes start, ¬ start.archive.Uses (start.sink.place w.1))
  (hapart : jobs.Pairwise fun a b => ∀ p ∈ a.targets start, ∀ q ∈ b.targets start, p.Apart q)
  (hlog : ∀ noted ∈ log, ¬ start.archive.Uses noted ∧
    ∀ job ∈ jobs, ∀ target ∈ job.targets start, ¬ noted <+: target)

include hunchanging hunused hapart hlog

theorem Site.Shared.of_start : start.Shared log (jobs.map (Lane.of start)) start where
  sound := by
    intro lane hlane
    obtain ⟨job, hjob, rfl⟩ := List.mem_map.mp hlane
    exact {
      alike := hunchanging
      changedAt := .refl _ _
      targets := fun _ => id
      unlogged := fun target htarget above habove hnoted =>
        (hlog above hnoted).2 job hjob target htarget habove
      unused := hunused job hjob }
  apart := List.pairwise_map.mpr hapart
  alike := hunchanging
  merges := by
    constructor
    · intro place _ part hpart hne
      obtain ⟨lane, hlane, rfl⟩ := List.mem_map.mp hpart
      obtain ⟨job, -, rfl⟩ := List.mem_map.mp hlane
      exact absurd rfl hne
    · intro place _ hne
      exact absurd rfl hne

/-- Two interleavings of jobs whose targets are apart come to the same values and to the same files
and folders. -/
theorem Interleaved.agree {others : List α} {left : Site} (hroot : start.sink.root.Normal)
    (h : Interleaved log jobs start values last) (h' : Interleaved log jobs start others left) :
    others = values ∧
      ∀ place, log ≠ some place → left.disk.node? place = last.disk.node? place := by
  have hshared := Site.Shared.of_start hunchanging hunused hapart hlog
  have hjobs : jobs = (jobs.map (Lane.of start)).map Lane.job := by
    rw [List.map_map]
    exact (List.map_id jobs).symm
  have hlogged := fun noted hnoted => (hlog noted hnoted).1
  obtain ⟨hvalues, hend⟩ := h.shared hroot hlogged hjobs hshared
  obtain ⟨hothers, hend'⟩ := h'.shared hroot hlogged hjobs hshared
  exact ⟨hothers.trans hvalues.symm, fun place hplace => hend.merges.node?_eq hend'.merges hplace⟩

end Apart

/-! ### Schedules -/

/-- The value of a job that is done. -/
def Job.value? : Job α → Option α
  | .done value => some value
  | _ => none

/-- Answer accesses of jobs that share a site, each of the job that is next in a schedule. -/
def Job.play : List Nat → List (Job α) → Site → List (Job α) × Site
  | [], jobs, site => (jobs, site)
  | n :: schedule, jobs, site =>
    match jobs[n]? with
    | none => play schedule jobs site
    | some job => play schedule (jobs.set n (job.advance site).1) (job.advance site).2

theorem Interleaved.set {n : Nat} {job : Job α} (hjob : jobs[n]? = some job)
    (hrest : Interleaved log (jobs.set n (job.advance site).1) (job.advance site).2 values last) :
    Interleaved log jobs site values last := by
  obtain ⟨hn, rfl⟩ := List.getElem?_eq_some_iff.mp hjob
  rw [List.set_eq_take_append_cons_drop, if_pos hn] at hrest
  have hall := Interleaved.access hrest
  rwa [List.getElem_cons_drop, List.take_append_drop] at hall

/-- A job may be done as a whole. -/
theorem Interleaved.run {before after : List (Job α)} (job : Job α) (site : Site)
    (hrest : Interleaved log (before ++ .done (job.run site).1 :: after) (job.run site).2 values
      last) :
    Interleaved log (before ++ job :: after) site values last := by
  induction job, site using Job.advance_induction with
  | done value site => exact hrest
  | advance job site ih =>
      apply Interleaved.access
      apply ih
      rw [Job.run_advance]
      exact hrest

/-- Entries that are dispatched in turn behind jobs that are done interleave with them in the
simplest way. -/
theorem Dispatched.interleaved_behind {d : Dispatcher} {agenda : List (Entry × Mode)}
    {outcomes : List Outcome} (h : Dispatched d log agenda site outcomes last)
    (front : List Outcome) :
    Interleaved log (front.map .done ++ agenda.map fun item => d.dispatch item.1 item.2) site
      (front ++ outcomes) last := by
  induction h generalizing front with
  | done hnoted =>
      apply Interleaved.note hnoted
      rw [List.map_nil, List.append_nil, List.append_nil]
      exact .done front _
  | @next entry mode agenda o outcomes site noted left last hnoted hrun _ ih =>
      apply Interleaved.note hnoted
      rw [List.map_cons]
      apply Interleaved.run
      rw [hrun]
      simpa using ih (front ++ [o])

theorem Dispatched.interleaved {d : Dispatcher} {agenda : List (Entry × Mode)}
    {outcomes : List Outcome} (h : Dispatched d log agenda site outcomes last) :
    Interleaved log (agenda.map fun item => d.dispatch item.1 item.2) site outcomes last :=
  h.interleaved_behind []

/-! ### Workers -/

namespace Exporter

variable {e : Exporter} {s : Session}

theorem dispatched_exportAll (e : Exporter) (mode : Mode) (entries : List Entry) (s : Session)
    (log : Option Path) :
    Dispatched e.dispatcher log (entries.map fun entry => (entry, mode)) s.site
        ((exportAll e mode entries s).1.map Prod.snd) (exportAll e mode entries s).2.site ∧
      (exportAll e mode entries s).2.log = s.log := by
  induction entries generalizing s with
  | nil => exact ⟨.done (.refl _ _), rfl⟩
  | cons entry entries ih =>
      obtain ⟨hrest, hlog⟩ := ih (s.perform (e.dispatcher.dispatch entry mode)).2
      exact ⟨.next (.refl _ _) rfl hrest, hlog⟩

theorem settleAll_eq (pattern : String) (mode : Mode) (total current : Nat)
    (outcomes : List (Entry × Outcome)) (s : Session) :
    s.site.Noted s.log (settleAll pattern mode total current outcomes s).site ∧
      (settleAll pattern mode total current outcomes s).tally.outcomes =
        s.tally.outcomes ++ outcomes.map Prod.snd := by
  induction outcomes generalizing current s with
  | nil => exact ⟨.refl _ _, (List.append_nil _).symm⟩
  | cons item outcomes ih =>
      obtain ⟨hnoted, htally, hlog, -⟩ :=
        settle_eq pattern mode current total item.1.identifier item.2 s
      obtain ⟨hrest, houtcomes⟩ :=
        ih (current + 1) (settle pattern mode current total item.1.identifier item.2 s)
      rw [hlog] at hrest
      refine ⟨hnoted.trans hrest, houtcomes.trans ?_⟩
      rw [htally, (s.tally.outcomes_count item.2).1, List.append_assoc]
      rfl

/-- With any number of workers, the entries of a pattern are dispatched in turn. -/
theorem dispatched_exportEntries (e : Exporter) (pattern : String) (entries : List Entry)
    (s : Session) :
    ∃ outcomes, (exportEntries e pattern entries s).tally.outcomes = s.tally.outcomes ++ outcomes ∧
      Dispatched e.dispatcher s.log (entries.map fun entry => (entry, s.mode)) s.site outcomes
        (exportEntries e pattern entries s).site := by
  simp only [exportEntries]
  split
  · exact (extends_exportInTurn e pattern s.mode entries.length 1 entries s).1.work
  · obtain ⟨hdispatched, hlog⟩ := dispatched_exportAll e s.mode entries s s.log
    obtain ⟨hnoted, houtcomes⟩ := settleAll_eq pattern s.mode entries.length 1
      (exportAll e s.mode entries s).1 (exportAll e s.mode entries s).2
    rw [hlog] at hnoted
    have htally : (exportAll e s.mode entries s).2.tally = s.tally :=
      (tracks_exportAll e s.mode entries s).2.tally
    refine ⟨_, ?_, by simpa using hdispatched.append (.done hnoted)⟩
    rw [houtcomes, htally]

/-- A session may tell of entries while others are still exported. Let its log file be neither
needed by the archive nor a target nor above one. With any number of workers, the session tallies
the outcomes of whatever interleaving there is, and it leaves the disk as that does, but for the log
file. -/
theorem exportEntries_interleaved (pattern : String) {entries : List Entry}
    {outcomes : List Outcome} {last : Site} (hunchanging : s.site.Alike s.site)
    (hroot : s.site.sink.root.Normal)
    (hunused : ∀ entry ∈ entries, ∀ w ∈ (e.dispatcher.dispatch entry s.mode).writes s.site,
      ¬ s.site.archive.Uses (s.site.sink.place w.1))
    (hapart : entries.Pairwise fun a b =>
      ∀ p ∈ (e.dispatcher.dispatch a s.mode).targets s.site,
        ∀ q ∈ (e.dispatcher.dispatch b s.mode).targets s.site, p.Apart q)
    (hlog : ∀ noted ∈ s.log, ¬ s.site.archive.Uses noted ∧ ∀ entry ∈ entries,
      ∀ target ∈ (e.dispatcher.dispatch entry s.mode).targets s.site, ¬ noted <+: target)
    (h : Interleaved s.log (entries.map fun entry => e.dispatcher.dispatch entry s.mode) s.site
      outcomes last) :
    (exportEntries e pattern entries s).tally.outcomes = s.tally.outcomes ++ outcomes ∧
      ∀ place, s.log ≠ some place →
        (exportEntries e pattern entries s).site.disk.node? place = last.disk.node? place := by
  obtain ⟨inTurn, houtcomes, hdispatched⟩ := dispatched_exportEntries e pattern entries s
  have hinTurn := hdispatched.interleaved
  rw [List.map_map] at hinTurn
  obtain ⟨rfl, hdisk⟩ := Interleaved.agree hunchanging (List.forall_mem_map.mpr hunused)
    (List.pairwise_map.mpr hapart) (by simpa only [List.forall_mem_map] using hlog) hroot h hinTurn
  exact ⟨houtcomes, hdisk⟩

end Exporter

end ArchiveExport
