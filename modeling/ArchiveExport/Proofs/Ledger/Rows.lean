import ArchiveExport.Proofs.Ledger.Records

/-!
# Rows of a run

What a run leaves in the ledger is one row behind the old ones and one record for each of its notes
behind the old ones. The row has a number of its own, so looking it up finds it, its records are
those of the notes, and no row and no record of another run has changed.
-/

namespace ArchiveExport.Ledger

variable {l l' : Ledger} {now : Moment} {row : Run} {notes : List Note}

/-- A ledger has one row more than another one, and records for its notes. -/
structure Adds (l l' : Ledger) (now : Moment) (row : Run) (notes : List Note) : Prop where
  runs : l'.runs = l.runs ++ [row]
  fresh : ∀ r ∈ l.runs, r.id ≠ row.id
  own : ∀ n ∈ notes, n.run = row.id
  records : ∃ added, l'.records = l.records ++ added ∧
    List.Forall₂ (Record.States now) notes added ∧
    added.Pairwise fun r later => r.id < later.id

/-! ### From the start of a run to its end -/

theorem adds_start (l : Ledger) (now : Moment) (script archive outputFolder : String) :
    l.Adds (l.start now script archive outputFolder).1 now
      { id := (l.start now script archive outputFolder).2
        script, archive, outputFolder, started := now } [] where
  runs := rfl
  fresh r hr := Nat.ne_of_lt (lt_nextId (List.mem_map_of_mem hr))
  own := by simp
  records := ⟨[], (List.append_nil _).symm, .nil, .nil⟩

theorem Adds.recordAll (h : l.Adds l' now row notes) {later : List Note}
    (hown : ∀ n ∈ later, n.run = row.id) :
    l.Adds (l'.recordAll now later) now row (notes ++ later) := by
  obtain ⟨added, hrecords, hstate, hordered⟩ := h.records
  obtain ⟨more, hmore, hstate', hordered', hbehind⟩ := l'.exists_records_recordAll now later
  refine ⟨(l'.runs_recordAll now later).trans h.runs, h.fresh, ?_, added ++ more, ?_,
    List.rel_append hstate hstate', ?_⟩
  · intro n hn
    rcases List.mem_append.mp hn with hold | hnew
    · exact h.own n hold
    · exact hown n hnew
  · rw [hmore, hrecords, List.append_assoc]
  · refine List.pairwise_append.mpr ⟨hordered, hordered', fun r hr => hbehind r ?_⟩
    rw [hrecords]
    exact List.mem_append_right _ hr

/-! ### What is found -/

/-- The row was not in the ledger before. -/
theorem Adds.run?_eq_none (h : l.Adds l' now row notes) : l.run? row.id = none := by
  refine List.find?_eq_none.mpr fun r hr => ?_
  have hfresh := h.fresh r hr
  rw [decide_eq_true_eq]
  omega

/-- The run had no records before. -/
theorem Adds.recordsOf_eq_nil (h : l.Adds l' now row notes) (hlisted : l.Listed) :
    l.recordsOf row.id = [] := by
  refine List.filter_eq_nil_iff.mpr fun r hr => ?_
  obtain ⟨listed, hmem, hrun⟩ := hlisted r hr
  have hfresh := h.fresh listed hmem
  rw [decide_eq_true_eq]
  omega

theorem Adds.run?_self (h : l.Adds l' now row notes) : l'.run? row.id = some row := by
  have hold := h.run?_eq_none
  rw [run?] at hold
  rw [run?, h.runs, List.find?_append, hold]
  simp

theorem Adds.run?_other (h : l.Adds l' now row notes) {id : Int} (hid : id ≠ row.id) :
    l'.run? id = l.run? id := by
  have hnot : ¬ decide ((row.id : Int) = id) = true := by
    rw [decide_eq_true_eq]
    exact hid.symm
  rw [run?, h.runs, List.find?_append, List.find?_singleton, if_neg hnot, Option.or_none, ← run?]

/-- The records of the run are those of its notes. -/
theorem Adds.recordsOf_self (h : l.Adds l' now row notes) (hlisted : l.Listed) :
    List.Forall₂ (Record.States now) notes (l'.recordsOf row.id) ∧
      (l'.recordsOf row.id).Pairwise fun r later => r.id < later.id := by
  have hold := h.recordsOf_eq_nil hlisted
  obtain ⟨added, hrecords, hstate, hordered⟩ := h.records
  have hnew : added.filter (fun r => r.run = (row.id : Int)) = added := by
    refine List.filter_eq_self.mpr fun r hr => ?_
    obtain ⟨n, hn, hstates⟩ := exists_of_forall₂ hstate hr
    rw [hstates]
    exact decide_eq_true (h.own n hn)
  rw [recordsOf] at hold
  rw [recordsOf, hrecords, List.filter_append, hold, hnew, List.nil_append]
  exact ⟨hstate, hordered⟩

theorem Adds.recordsOf_other (h : l.Adds l' now row notes) {id : Int} (hid : id ≠ row.id) :
    l'.recordsOf id = l.recordsOf id := by
  obtain ⟨added, hrecords, hstate, -⟩ := h.records
  have hnew : added.filter (fun r => r.run = id) = [] := by
    refine List.filter_eq_nil_iff.mpr fun r hr => ?_
    obtain ⟨n, hn, hstates⟩ := exists_of_forall₂ hstate hr
    rw [decide_eq_true_eq, hstates]
    exact fun hrun => hid (hrun.symm.trans (h.own n hn))
  rw [recordsOf, hrecords, List.filter_append, hnew, List.append_nil, ← recordsOf]

theorem Adds.listed (h : l.Adds l' now row notes) (hlisted : l.Listed) : l'.Listed := by
  obtain ⟨added, hrecords, hstate, -⟩ := h.records
  intro r hr
  rw [hrecords] at hr
  rw [h.runs]
  rcases List.mem_append.mp hr with hold | hnew
  · obtain ⟨listed, hmem, hrun⟩ := hlisted r hold
    exact ⟨listed, List.mem_append_left _ hmem, hrun⟩
  · obtain ⟨n, hn, hstates⟩ := exists_of_forall₂ hstate hnew
    refine ⟨row, by simp, ?_⟩
    rw [hstates]
    exact h.own n hn

/-! ### The end of a run -/

theorem Adds.finish (h : l.Adds l' now row notes) (result : Result) :
    l.Adds ((l'.finish now row.id result).toOption.getD l') now
      { row with finished := some now, result } notes := by
  -- the result is noted in every row of the number, and no old row has it
  have hold : l.runs.map (fun r => r.ended now row.id result) = l.runs := by
    refine (List.map_congr_left fun r hr => ?_).trans (List.map_id' _)
    have hfresh := h.fresh r hr
    rw [Run.ended, if_neg (by omega)]
  have hlast : (l'.finish now row.id result).toOption.getD l' =
      { l' with runs := l'.runs.map fun r => r.ended now row.id result } := by
    simp [Ledger.finish, h.run?_self, Except.toOption, Run.ended]
  rw [hlast]
  refine ⟨?_, h.fresh, h.own, h.records⟩
  rw [h.runs, List.map_append, hold]
  simp [Run.ended]

end ArchiveExport.Ledger
