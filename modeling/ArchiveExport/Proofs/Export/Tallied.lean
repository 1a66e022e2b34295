import ArchiveExport.Proofs.Export.Script

/-!
# Counts of tallies

A tally changes in three ways only: an outcome is counted, a pattern is missed, or the run is broken
off. All of them keep that the counts are those of the outcomes, and that a tally tells success as
long as nothing failed.
-/

namespace ArchiveExport

/-- The counts of a tally are those of its outcomes, and it tells success as long as nothing failed,
every pattern named something and nothing broke it off. -/
structure Tally.Counted (t : Tally) : Prop where
  exported : t.exported = t.outcomes.countP (·.status = .success)
  unsupported : t.unsupported = t.outcomes.countP (·.status = .unsupported)
  failed : t.failed = (t.outcomes.filter (·.status = .failed)).map Outcome.identifier
  success_iff : t.success = true ↔ t.failed = [] ∧ t.misses = [] ∧ t.aborted = false

theorem Tally.Counted.count {t : Tally} (h : t.Counted) (o : Outcome) : (t.count o).Counted := by
  obtain ⟨hexported, hunsupported, hfailed, hsuccess⟩ := h
  rw [Tally.count]
  cases hstatus : o.status with
  | success =>
      exact ⟨by simp [hexported, hstatus], by simp [hunsupported, hstatus],
        by simp [hfailed, hstatus], hsuccess⟩
  | unsupported =>
      exact ⟨by simp [hexported, hstatus], by simp [hunsupported, hstatus],
        by simp [hfailed, hstatus], hsuccess⟩
  | failed =>
      exact ⟨by simp [hexported, hstatus], by simp [hunsupported, hstatus],
        by simp [hfailed, hstatus], by simp⟩

theorem Tally.Counted.miss {t : Tally} (h : t.Counted) (pattern : String) :
    (t.miss pattern).Counted :=
  ⟨h.exported, h.unsupported, h.failed, by simp [Tally.miss]⟩

theorem Tally.Counted.abort {t : Tally} (h : t.Counted) (message : String) :
    (t.abort message).Counted :=
  ⟨h.exported, h.unsupported, h.failed, by simp [Tally.abort]⟩

theorem Tally.counted_empty : Tally.Counted {} :=
  ⟨rfl, rfl, rfl, by simp⟩

theorem Tally.Counted.total {t : Tally} (h : t.Counted) :
    t.exported + t.unsupported + t.failed.length = t.outcomes.length := by
  rw [h.exported, h.unsupported, h.failed, List.length_map, ← List.countP_eq_length_filter]
  induction t.outcomes with
  | nil => rfl
  | cons o outcomes ih => cases hstatus : o.status <;> simp [hstatus] <;> omega

end ArchiveExport
