import ArchiveExport.Proofs.Export.Books
import ArchiveExport.Proofs.Script.Source

/-!
# Runs of script files

The run of a script file starts before the file is read and carries out its lines while it is read.
It ends with a tally unless it reaches octets that spell no text; then it is left in the ledger as a
run that has not ended. Only a malformed header before these octets keeps it from reaching them.
-/

namespace ArchiveExport

namespace Session

variable {t : Session} {l : Ledger} {row : Ledger.Run} {events : List Event}

/-- A row stands in the ledger of a session under the number of its run, which was not there in an
earlier ledger. -/
def HasRow (t : Session) (l : Ledger) (row : Ledger.Run) : Prop :=
  l.run? t.run = none ∧ ∃ l', t.ledger = some l' ∧ l'.run? t.run = some row

theorem Books.hasRow (h : t.Books l row events) : t.HasRow l row := by
  obtain ⟨l', hledger, hadds⟩ := h.ledger
  have hnew := hadds.run?_eq_none
  have hfound := hadds.run?_self
  rw [h.id] at hnew hfound
  exact ⟨hnew, l', hledger, hfound⟩

end Session

namespace Exporter

variable {e : Exporter} {s : Session}

/-- A run has returned its tally, and if there is a ledger, it has ended there with that tally. -/
def Returns (s : Session) (run : Session × Except Text.Charset.Fault Tally) : Prop :=
  ∃ t, run.2 = .ok t ∧ ∀ l, s.ledger = some l →
    ∃ row, run.1.HasRow l row ∧ row.finished = some s.now ∧ row.result = t.result

/-- A run has failed, and if there is a ledger, it has begun there and not ended. -/
def Fails (s : Session) (run : Session × Except Text.Charset.Fault Tally) : Prop :=
  ∃ fault, run.2 = .error fault ∧ ∀ l, s.ledger = some l →
    ∃ row, run.1.HasRow l row ∧ row.finished = none

theorem Fails.not_returns {run : Session × Except Text.Charset.Fault Tally} (h : Fails s run) :
    ¬ Returns s run := by
  rintro ⟨t, hok, -⟩
  obtain ⟨fault, herror, -⟩ := h
  rw [hok] at herror
  cases herror

/-- A run of lines returns if there is no fault behind them, or a malformed header among them. -/
theorem returns_runLines (script : String) (lines : List String)
    {textFault : Option Text.Charset.Fault}
    (h : textFault = none ∨ ∃ line ∈ lines, Directive.isMalformed line = true) :
    Returns s (e.runLines script lines textFault s) := by
  have hends : textFault = none ∨ (Directive.parseLines lines).2 ≠ none := by
    refine h.imp_right fun ⟨line, hline, hmalformed⟩ hnone => ?_
    have hgood := (Script.parseFrom_eq_none_iff 1 lines).mp hnone line hline
    rw [hgood] at hmalformed
    cases hmalformed
  obtain ⟨hclosed, hanswer⟩ := closes_runLines e script lines s hends
  refine ⟨_, hanswer, fun l hledger => ?_⟩
  obtain ⟨row, blocks, -, hnow, -, hbooks, -⟩ :=
    (carriesOut_obeyed e script lines s).exists_books hledger
  exact ⟨_, (hbooks.closes hclosed).hasRow, congrArg some (hclosed.now.trans hnow), rfl⟩

/-- A run of lines without a malformed header fails where a fault stands behind them. -/
theorem fails_runLines (script : String) {lines : List String} (fault : Text.Charset.Fault)
    (h : ∀ line ∈ lines, Directive.isMalformed line = false) :
    Fails s (e.runLines script lines (some fault) s) := by
  have hnone : (Directive.parseLines lines).2 = none := (Script.parseFrom_eq_none_iff 1 lines).mpr h
  have hrun : e.runLines script lines (some fault) s = (obeyed e script lines s, .error fault) := by
    simp only [runLines, hnone, obeyed]
  rw [hrun]
  refine ⟨fault, rfl, fun l hledger => ?_⟩
  obtain ⟨row, blocks, hopen, -, -, hbooks, -⟩ :=
    (carriesOut_obeyed e script lines s).exists_books hledger
  exact ⟨row, hbooks.hasRow, hopen⟩

/-- A script file is carried out to an end: it is a text, or one of the lines that are known before
the first octets that spell no text is a malformed header. -/
def Concludes (data : Bytes) : Prop :=
  Script.IsText data ∨ ∃ line ∈ (Script.linesOf data).1, Directive.isMalformed line = true

/-- The run of a script file returns, and ends in the ledger if there is one, exactly if the file is
carried out to an end; else it fails, and stays in the ledger as one that has not ended. -/
theorem runFile_returns_iff (e : Exporter) (script : String) (data : Bytes) (s : Session) :
    (Returns s (e.runFile script data s) ↔ Concludes data) ∧
      (Fails s (e.runFile script data s) ↔ ¬ Concludes data) := by
  have hreturns : Concludes data → Returns s (e.runFile script data s) := fun h =>
    returns_runLines script _ (h.imp_left (Script.linesOf_eq_none_iff data).mpr)
  have hfails : ¬ Concludes data → Fails s (e.runFile script data s) := by
    intro h
    obtain ⟨htext, hheader⟩ := not_or.mp h
    rw [← Script.linesOf_eq_none_iff] at htext
    obtain ⟨fault, hfault⟩ := Option.ne_none_iff_exists'.mp htext
    have hsound : ∀ line ∈ (Script.linesOf data).1, Directive.isMalformed line = false :=
      fun line hline => Bool.eq_false_iff.mpr fun hbad => hheader ⟨line, hline, hbad⟩
    have hrun : e.runFile script data s =
        e.runLines script (Script.linesOf data).1 (some fault) s := by
      rw [runFile, ← hfault]
    rw [hrun]
    exact fails_runLines script fault hsound
  constructor
  · refine ⟨fun h => ?_, hreturns⟩
    by_contra hnot
    exact (hfails hnot).not_returns h
  · exact ⟨fun h hconcludes => h.not_returns (hreturns hconcludes), hfails⟩

/-- A file of one octet that starts no character makes its run fail, and the run does not end. -/
theorem runFile_stray_octet :
    let s := { emptySession with ledger := some .empty }
    let run := plainExporter.runFile "s" [0xFF] s
    run.2 = .error (.decoding .utf8 0 1 0xFF .invalidStart) ∧
      run.1.ledger.map Ledger.runs = some
        [{ id := 1, script := "s", archive := "", outputFolder := "/out", started := s.now }] ∧
      ¬ Returns s run := by
  intro s run
  have hlines : Script.linesOf [0xFF] =
      ([], some (.decoding .utf8 0 1 0xFF .invalidStart)) := by
    rw [Script.linesOf, Script.blocks]
    rfl
  have hrun : run = (s.start "s" "" plainExporter.mode,
      .error (.decoding .utf8 0 1 0xFF .invalidStart)) := by
    simp only [run, runFile, hlines]
    rfl
  rw [hrun]
  refine ⟨rfl, rfl, ?_⟩
  rintro ⟨t, hok, -⟩
  cases hok

end Exporter

end ArchiveExport
