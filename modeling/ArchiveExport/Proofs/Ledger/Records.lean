import ArchiveExport.Ledger.Basic
import ArchiveExport.Proofs.Data.Alignment
import ArchiveExport.Proofs.Text.Pieces

/-!
# Records of a run

A new run has a number that no earlier run has. The notes of a run become its records, in order,
and where no path has a line feed in it the paths of the outputs can be read back.
-/

namespace ArchiveExport.Ledger

variable {l : Ledger} {now : Moment} {notes : List Note}

/-! ### Numbers -/

theorem le_foldl_max (ids : List Nat) (least : Nat) :
    least ≤ ids.foldl max least ∧ ∀ id ∈ ids, id ≤ ids.foldl max least := by
  induction ids generalizing least with
  | nil => simp
  | cons id ids ih =>
      obtain ⟨hleast, hids⟩ := ih (max least id)
      rw [List.foldl_cons]
      refine ⟨by omega, fun other hother => ?_⟩
      rcases List.mem_cons.mp hother with rfl | hrest
      · omega
      · exact hids other hrest

theorem lt_nextId {ids : List Nat} {id : Nat} (h : id ∈ ids) : id < nextId ids :=
  Nat.lt_succ_of_le ((le_foldl_max ids 0).2 id h)

/-- Every record belongs to a run of the ledger. -/
def Listed (l : Ledger) : Prop := ∀ record ∈ l.records, ∃ r ∈ l.runs, record.run = r.id

instance (l : Ledger) : Decidable l.Listed :=
  inferInstanceAs (Decidable (∀ record ∈ l.records, ∃ r ∈ l.runs, record.run = r.id))

/-- A new run has no records yet. -/
theorem recordsOf_start (h : l.Listed) (now : Moment) (script archive outputFolder : String) :
    (l.start now script archive outputFolder).1.recordsOf
      (l.start now script archive outputFolder).2 = [] := by
  rw [recordsOf, List.filter_eq_nil_iff]
  intro record hrecord
  obtain ⟨r, hr, hrun⟩ := h record hrecord
  have hnew := lt_nextId (List.mem_map_of_mem (f := Run.id) hr)
  simp only [start, hrun, decide_eq_true_eq]
  omega

theorem run?_start (l : Ledger) (now : Moment) (script archive outputFolder : String) :
    (l.start now script archive outputFolder).1.run?
        (l.start now script archive outputFolder).2 =
      some { id := (l.start now script archive outputFolder).2
             script, archive, outputFolder, started := now } := by
  have hold : ∀ r ∈ l.runs, ¬ decide ((r.id : Int) = nextId (l.runs.map Run.id)) = true := by
    intro r hr
    have hnew := lt_nextId (List.mem_map_of_mem (f := Run.id) hr)
    rw [decide_eq_true_eq]
    omega
  rw [start, run?, List.find?_append, List.find?_eq_none.mpr hold]
  simp

theorem listed_start (h : l.Listed) (script archive outputFolder : String) :
    (l.start now script archive outputFolder).1.Listed := by
  intro record hrecord
  obtain ⟨r, hr, hrun⟩ := h record hrecord
  exact ⟨r, List.mem_append_left _ hr, hrun⟩

/-! ### Records -/

/-- The ledger with the records of notes. -/
def recordAll (l : Ledger) (now : Moment) (notes : List Note) : Ledger :=
  notes.foldl (fun l n => l.record now n) l

theorem recordAll_append (l : Ledger) (now : Moment) (notes later : List Note) :
    l.recordAll now (notes ++ later) = (l.recordAll now notes).recordAll now later :=
  List.foldl_append

theorem runs_recordAll (l : Ledger) (now : Moment) (notes : List Note) :
    (l.recordAll now notes).runs = l.runs := by
  induction notes generalizing l with
  | nil => rfl
  | cons n notes ih => exact ih (l.record now n)

/-- A record states a note, under its own number. -/
def Record.States (now : Moment) (n : Note) (r : Record) : Prop :=
  r = .ofNote r.id now n

/-- Each note becomes one record, in order, and the new records are numbered upwards behind the old
ones. -/
theorem exists_records_recordAll (l : Ledger) (now : Moment) (notes : List Note) :
    ∃ added, (l.recordAll now notes).records = l.records ++ added ∧
      List.Forall₂ (Record.States now) notes added ∧
      added.Pairwise (fun r later => r.id < later.id) ∧
      ∀ old ∈ l.records, ∀ r ∈ added, old.id < r.id := by
  induction notes generalizing l with
  | nil => exact ⟨[], (List.append_nil _).symm, .nil, .nil, by simp⟩
  | cons n notes ih =>
      obtain ⟨added, hrecords, hstate, hordered, hbehind⟩ := ih (l.record now n)
      have hfirst : ∀ old ∈ l.records, old.id < nextId (l.records.map Record.id) :=
        fun old hold => lt_nextId (List.mem_map_of_mem hold)
      have hlater : ∀ old ∈ l.records, ∀ r ∈ added, old.id < r.id :=
        fun old hold => hbehind old (List.mem_append_left _ hold)
      have hnew : ∀ r ∈ added, nextId (l.records.map Record.id) < r.id :=
        fun r hr => hbehind _ (List.mem_append_right _ List.mem_cons_self) r hr
      refine ⟨.ofNote (nextId (l.records.map Record.id)) now n :: added, ?_, .cons rfl hstate,
        .cons hnew hordered,
        fun old hold => List.forall_mem_cons.mpr ⟨hfirst old hold, hlater old hold⟩⟩
      rw [recordAll, List.foldl_cons, ← recordAll, hrecords, record, List.append_assoc]
      rfl

/-- A record says what its note says. -/
structure Record.Keeps (r : Record) (n : Note) : Prop where
  run : r.run = n.run
  outputs : r.outputs = Text.join "\n" n.outputs
  digest : r.digest = n.digest

theorem Record.States.keeps {n : Note} {r : Record} (h : Record.States now n r) : r.Keeps n := by
  rw [h]
  exact ⟨rfl, rfl, rfl⟩

/-- Recording adds a record for each note and leaves the runs. -/
theorem records_recordAll (l : Ledger) (now : Moment) (notes : List Note) :
    (l.recordAll now notes).runs = l.runs ∧
      ∃ added, (l.recordAll now notes).records = l.records ++ added ∧
        List.Forall₂ (fun n r => Record.Keeps r n) notes added := by
  obtain ⟨added, hrecords, hstate, -⟩ := l.exists_records_recordAll now notes
  exact ⟨l.runs_recordAll now notes, added, hrecords, hstate.imp fun _ _ h => h.keeps⟩

/-- The notes of one run become its records behind those it has. -/
theorem recordsOf_recordAll (l : Ledger) (now : Moment) {id : Int}
    (hnotes : ∀ n ∈ notes, n.run = id) :
    ∃ added, (l.recordAll now notes).recordsOf id = l.recordsOf id ++ added ∧
      List.Forall₂ (fun n r => Record.Keeps r n) notes added := by
  obtain ⟨-, added, hrecords, hkeeps⟩ := l.records_recordAll now notes
  refine ⟨added, ?_, hkeeps⟩
  have hadded : ∀ r ∈ added, decide (r.run = id) = true := by
    intro r hr
    obtain ⟨n, hn, hkept⟩ := exists_of_forall₂ hkeeps hr
    exact decide_eq_true (hkept.run.trans (hnotes n hn))
  rw [recordsOf, hrecords, List.filter_append, List.filter_eq_self.mpr hadded, ← recordsOf]

theorem run?_recordAll (id : Int) : (l.recordAll now notes).run? id = l.run? id := by
  rw [run?, run?, runs_recordAll]

theorem listed_recordAll (h : l.Listed) {id : Nat} (hrun : ∃ r ∈ l.runs, r.id = id)
    (hnotes : ∀ n ∈ notes, n.run = id) : (l.recordAll now notes).Listed := by
  obtain ⟨hruns, added, hrecords, hkeeps⟩ := l.records_recordAll now notes
  intro record hrecord
  rw [hruns]
  rw [hrecords] at hrecord
  rcases List.mem_append.mp hrecord with hold | hnew
  · exact h record hold
  · obtain ⟨n, hn, hkept⟩ := exists_of_forall₂ hkeeps hnew
    obtain ⟨r, hr, rfl⟩ := hrun
    exact ⟨r, hr, hkept.run.trans (hnotes n hn)⟩

/-! ### Ends of runs -/

/-- The run of a number once a result is noted for it. -/
def Run.ended (r : Run) (now : Moment) (id : Int) (result : Result) : Run :=
  if (r.id : Int) = id then { r with finished := some now, result } else r

theorem Run.ended_eq (r : Run) (now : Moment) (id : Int) (result : Result) :
    (r.ended now id result).id = r.id ∧
      (r.ended now id result).outputFolder = r.outputFolder := by
  rw [ended]
  split <;> exact ⟨rfl, rfl⟩

/-- Noting the result of a run, if there is one, changes nothing but the result. -/
theorem finish_getD (l : Ledger) (now : Moment) (id : Int) (result : Result) :
    let last := (l.finish now id result).toOption.getD l
    last.records = l.records ∧
      last.runs.map Run.id = l.runs.map Run.id ∧
      ∀ r, l.run? id = some r → last.run? id = some (r.ended now id result) := by
  intro last
  cases hrun : l.run? id with
  | none =>
      have hlast : last = l := by
        simp [last, finish, hrun, Except.toOption]
      rw [hlast]
      exact ⟨rfl, rfl, by simp⟩
  | some found =>
      have hlast : last = { l with runs := l.runs.map fun r => r.ended now id result } := by
        simp [last, finish, hrun, Except.toOption, Run.ended]
      have hid : ∀ r : Run, (r.ended now id result).id = r.id := fun r => (r.ended_eq ..).1
      rw [hlast]
      refine ⟨rfl, ?_, fun r hr => ?_⟩
      · simp only [List.map_map, Function.comp_def, hid]
      · rw [run?] at hrun ⊢
        rw [List.find?_map]
        simp only [Function.comp_def, hid, hrun, Option.map_some]
        rw [Option.some.inj hr]

theorem listed_finish (h : l.Listed) (id : Int) (result : Result) :
    ((l.finish now id result).toOption.getD l).Listed := by
  obtain ⟨hrecords, hruns, -⟩ := l.finish_getD now id result
  intro record hrecord
  rw [hrecords] at hrecord
  obtain ⟨r, hr, hrun⟩ := h record hrecord
  have hid : r.id ∈ ((l.finish now id result).toOption.getD l).runs.map Run.id := by
    rw [hruns]
    exact List.mem_map_of_mem hr
  obtain ⟨last, hlast, hsame⟩ := List.mem_map.mp hid
  exact ⟨last, hlast, by rw [hrun, hsame]⟩

/-! ### Paths -/

/-- The paths of outputs can be read back from a record. -/
theorem Record.paths_of_outputs {r : Record} {outputs : List String}
    (h : r.outputs = Text.join "\n" outputs)
    (hpaths : ∀ path ∈ outputs, path ≠ "" ∧ '\n' ∉ path.toList) : r.paths = outputs := by
  have hne : ∀ path ∈ outputs, decide (path ≠ "") = true :=
    fun path hpath => decide_eq_true (hpaths path hpath).1
  rw [paths, h]
  cases outputs with
  | nil => rfl
  | cons path outputs =>
      rw [Text.split_join rfl (List.cons_ne_nil path outputs) fun path hpath =>
        (hpaths path hpath).2]
      exact List.filter_eq_self.mpr hne

end ArchiveExport.Ledger
