import ArchiveExport.Proofs.Export.Dispatch
import ArchiveExport.Proofs.Export.Table
import ArchiveExport.Proofs.Text.WellFormed

/-!
# Exported texts

A text that is stored in UTF-8 is read strictly and written in UTF-8 again. So it is written octet
by octet as it is stored, or it is not well formed and nothing is written for it but a failure.
-/

namespace ArchiveExport

namespace Text.Charset

theorem decodeNamed_utf8 (others : Registry) (data : Bytes) :
    decodeNamed others "utf-8" data = (Utf8.decode data).mapError ofUtf8Fault := by
  have hnul : "utf-8".toList.contains (Char.ofNat 0) = false := by decide
  have hname : ofName? "utf-8" = some .utf8 := by decide
  rw [decodeNamed, codec?, hnul, hname]
  cases data <;> rfl

end Text.Charset

namespace Step

variable {naming : Naming} {identifier path : String} {data : Bytes} {site : Site}
  {archive : Archive}

/-- What the text of an identifier makes of the octets that are read for it. -/
theorem run_produce_text (codecs : Codecs) (normalize : String → String)
    (hencoding : naming.textEncoding = .text "utf-8")
    (hpath : Setting.appendTo identifier naming.textSuffix = .ok path) (p : Progress) :
    (produce codecs normalize naming .text identifier).run.run p = .read identifier fun answer =>
      match answer with
      | .error fault => .done (.error (.archive fault), p)
      | .ok data =>
        match Text.Utf8.decode data with
        | .ok cs => (emit .text path (Text.Utf8.encode cs)).run.run p
        | .error fault => .done (.error (.charset (Text.Charset.ofUtf8Fault fault)), p) := by
  rw [produce, run_bind, run_read, Job.bind]
  refine congrArg (Job.read identifier) (funext fun answer => ?_)
  cases answer with
  | error fault => rfl
  | ok data =>
      simp only [Job.bind, hencoding, pure_bind, Text.Charset.decodeNamed_utf8, hpath]
      cases Text.Utf8.decode data <;> rfl

/-- A well-formed text is written as it is stored. -/
theorem run_produce_text_of_wellFormed (codecs : Codecs) (normalize : String → String)
    (hencoding : naming.textEncoding = .text "utf-8")
    (hpath : Setting.appendTo identifier naming.textSuffix = .ok path)
    (hread : site.archive.read site.disk identifier = (.ok data, archive))
    (hdata : Text.Utf8.WellFormed data) (p : Progress) :
    ((produce codecs normalize naming .text identifier).run.run p).run site =
        ((emit .text path data).run.run p).run { site with archive } ∧
      ((produce codecs normalize naming .text identifier).run.run p).writes site =
        ((emit .text path data).run.run p).writes { site with archive } := by
  obtain ⟨cs, rfl⟩ := Text.Utf8.spells_iff_wellFormed.mpr hdata
  rw [run_produce_text codecs normalize hencoding hpath, Job.run, Job.writes, hread]
  simp only [Text.Utf8.decode_encode, and_self]

/-- Other octets are refused. -/
theorem exists_run_produce_text_of_not_wellFormed (codecs : Codecs) (normalize : String → String)
    (hencoding : naming.textEncoding = .text "utf-8")
    (hpath : Setting.appendTo identifier naming.textSuffix = .ok path)
    (hread : site.archive.read site.disk identifier = (.ok data, archive))
    (hdata : ¬ Text.Utf8.WellFormed data) :
    ∃ fault : Text.Charset.Fault, ∀ p : Progress,
      ((produce codecs normalize naming .text identifier).run.run p).run site =
          ((.error (.charset fault), p), { site with archive }) ∧
        ((produce codecs normalize naming .text identifier).run.run p).writes site = [] := by
  rw [← Text.Utf8.spells_iff_wellFormed, Text.Utf8.spells_iff_decode] at hdata
  cases hdecode : Text.Utf8.decode data with
  | ok cs => exact absurd ⟨cs, hdecode⟩ hdata
  | error fault =>
      refine ⟨Text.Charset.ofUtf8Fault fault, fun p => ?_⟩
      rw [run_produce_text codecs normalize hencoding hpath, Job.run, Job.writes, hread]
      simp only [hdecode, Job.run, Job.writes, and_self]

/-- Trying to write a text, by what the output folder answers. -/
theorem writes_emit (kind : OutputKind) (p : Progress) :
    ((emit kind path data).run.run p).writes site =
      if (site.sink.write site.disk path data).2.2.isOk then [(path, data)] else [] := by
  rw [run_emit, Job.writes]
  rcases site.sink.write site.disk path data with ⟨sink, disk, fault | target⟩
  · rfl
  · rfl

end Step

namespace Dispatcher

open Step (trials)

variable {d : Dispatcher} {entry : Entry} {mode : Mode} {site : Site} {path : String}
  {data : Bytes} {archive : Archive}

/-- In a mode with documents, the text of an entry is tried first, and no other step is of its
kind. -/
theorem exists_trials_of_text (hhandler : d.table.handlerFor entry.identifier = .text)
    (hmode : mode.structured = true) (site : Site) :
    ∃ others, trials d.debug (d.steps entry mode) site =
        Step.trial .text (Step.produce d.codecs d.normalize d.naming .text entry.identifier) site ::
          others ∧
      ∀ t ∈ others, t.kind ≠ .text := by
  have hsteps : d.steps entry mode =
      (.text, Step.produce d.codecs d.normalize d.naming .text entry.identifier) ::
        (d.imageSteps entry mode ++ memberSteps entry mode) := by
    rw [steps_eq, documentSteps, if_pos hmode, hhandler, List.append_assoc]
    rfl
  have hkinds : ∀ item ∈ d.imageSteps entry mode ++ memberSteps entry mode, item.1 ≠ .text := by
    rw [List.forall_mem_append]
    constructor
    · rw [imageSteps]
      split <;> simp
    · rw [memberSteps]
      split <;> simp
  rw [hsteps, trials]
  refine ⟨_, rfl, fun t ht => ?_⟩
  have hkind := List.mem_map_of_mem (f := Trial.kind) ht
  rw [Step.map_kind_trials] at hkind
  obtain ⟨item, hitem, heq⟩ := List.mem_map.mp hkind
  rw [← heq]
  exact hkinds item hitem

/-- The words for an entry begin with its first failure. -/
theorem exists_cause_of_trials {t : Trial} {others : List Trial} {cause : Cause}
    (htried : trials d.debug (d.steps entry mode) site = t :: others)
    (hfailed : t.result = .error cause) :
    ∃ rest, ((d.dispatch entry mode).run site).1.cause =
      some ((⟨t.kind, cause⟩ : Failure).message ++ rest) := by
  obtain ⟨outputs, -, hrun, -⟩ := d.run_dispatch entry mode site
  have hfailures : t.failures = [⟨t.kind, cause⟩] := by
    rw [Trial.failures, hfailed]
  rw [hrun, htried, List.flatMap_cons, hfailures, List.singleton_append]
  simp only [Outcome.ofProgress, List.isEmpty_cons, List.map_cons, Text.join]
  cases others.flatMap Trial.failures with
  | nil => exact ⟨"", by simp⟩
  | cons failure failures =>
      rw [List.map_cons, String.intercalate_cons_cons, String.append_assoc]
      exact ⟨_, rfl⟩

/-- In a mode with documents, a text stored in UTF-8 is tried first, and nothing else of its kind
is. If the stored octets are well formed, one output is written that has these octets, whatever
they are; if they are not, the entry has failed by its text and no text is written. -/
theorem text_written_or_refused (hhandler : d.table.handlerFor entry.identifier = .text)
    (hmode : mode.structured = true) (hencoding : d.naming.textEncoding = .text "utf-8")
    (hpath : Setting.appendTo entry.identifier d.naming.textSuffix = .ok path)
    (hread : site.archive.read site.disk entry.identifier = (.ok data, archive)) :
    let strategy := Step.produce d.codecs d.normalize d.naming .text entry.identifier
    let o := ((d.dispatch entry mode).run site).1
    ∃ t others, trials d.debug (d.steps entry mode) site = t :: others ∧ t.kind = .text ∧
      (∀ other ∈ others, other.kind ≠ .text) ∧
      ((Text.Utf8.WellFormed data ∧
          (∀ p, (strategy.run.run p).run site =
              ((Step.emit .text path data).run.run p).run { site with archive } ∧
            (strategy.run.run p).writes site =
              ((Step.emit .text path data).run.run p).writes { site with archive }) ∧
          t.writes =
            if (site.sink.write site.disk path data).2.2.isOk then [(path, data)] else []) ∨
        (¬ Text.Utf8.WellFormed data ∧ ∃ fault : Text.Charset.Fault,
          (∀ p, (strategy.run.run p).run site =
              ((.error (.charset fault), p), { site with archive }) ∧
            (strategy.run.run p).writes site = []) ∧
          t.writes = [] ∧ o.status = .failed ∧
          ∃ rest, o.cause = some ("text: " ++ fault.message ++ rest))) := by
  intro strategy o
  obtain ⟨others, htried, hothers⟩ := d.exists_trials_of_text hhandler hmode site
  refine ⟨_, others, htried, rfl, hothers, ?_⟩
  by_cases hdata : Text.Utf8.WellFormed data
  · have hrun := Step.run_produce_text_of_wellFormed d.codecs d.normalize hencoding hpath hread
      hdata
    refine Or.inl ⟨hdata, hrun, ?_⟩
    rw [Step.trial, (hrun {}).2, Step.writes_emit]
  · obtain ⟨fault, hrun⟩ := Step.exists_run_produce_text_of_not_wellFormed
      d.codecs d.normalize hencoding hpath hread hdata
    have htrial : Step.trial .text strategy site = ⟨.text, .error (.charset fault), []⟩ := by
      rw [Step.trial, (hrun {}).1, (hrun {}).2]
    have hstatus : o.status = .failed := by
      refine (d.status_dispatch entry mode site).1.mpr ⟨_, htried ▸ List.mem_cons_self, ?_⟩
      rw [htrial]
      rfl
    obtain ⟨rest, hcause⟩ :=
      exists_cause_of_trials htried (congrArg Trial.result htrial)
    refine Or.inr ⟨hdata, fault, hrun, congrArg Trial.writes htrial, hstatus, rest, ?_⟩
    rw [hcause]
    rfl

/-- A folder with two texts: one with a byte order mark, an end of line of two characters and a NUL,
and one with a character in more octets than it needs. -/
def textSite : Site where
  archive := .folder ⟨⟨[("long.txt", ⟨"/in/long.txt", 0⟩), ("marked.txt", ⟨"/in/marked.txt", 0⟩)]⟩⟩
  disk := (Disk.empty.putFile ["in", "long.txt"] [0xC0, 0x80]).putFile ["in", "marked.txt"]
    [0xEF, 0xBB, 0xBF, 0x61, 0x0D, 0x0A, 0x00]
  sink := { root := ⟨"/", ["out"]⟩ }
  console := {}

theorem wellFormed_marked :
    Text.Utf8.WellFormed [0xEF, 0xBB, 0xBF, 0x61, 0x0D, 0x0A, 0x00] :=
  Text.Utf8.spells_iff_wellFormed.mp (Text.Utf8.spells_iff_decode.mpr ⟨_, rfl⟩)

theorem not_wellFormed_long : ¬ Text.Utf8.WellFormed [0xC0, 0x80] := by
  rw [← Text.Utf8.spells_iff_wellFormed, Text.Utf8.spells_iff_decode]
  rintro ⟨cs, hcs⟩
  cases hcs

/-- The marked text is written as it is, and the other one is refused. -/
theorem text_written_or_refused_of_marked_of_long :
    let d : Dispatcher := { codecs := .plain, normalize := id }
    let marked : Entry := ⟨"marked.txt", "*", ["marked.txt"]⟩
    let long : Entry := ⟨"long.txt", "*", ["long.txt"]⟩
    (∃ t others, trials d.debug (d.steps marked .standard) textSite = t :: others ∧
      t.writes = [("marked.txt.txt", [0xEF, 0xBB, 0xBF, 0x61, 0x0D, 0x0A, 0x00])]) ∧
    ((d.dispatch long .standard).run textSite).1.status = .failed := by
  intro d marked long
  have hstructured : Mode.standard.structured = true := rfl
  have hmarked : d.table.handlerFor marked.identifier = .text := by
    change DispatchTable.standard.handlerFor "marked.txt" = .text
    rw [DispatchTable.standard_eq_spelled]
    decide
  have hlong : d.table.handlerFor long.identifier = .text := by
    change DispatchTable.standard.handlerFor "long.txt" = .text
    rw [DispatchTable.standard_eq_spelled]
    decide
  constructor
  · have hread : textSite.archive.read textSite.disk "marked.txt" = (.ok _, _) := rfl
    obtain ⟨t, others, htried, -, -, ⟨-, -, hwrites⟩ | ⟨hnot, -⟩⟩ :=
      text_written_or_refused hmarked hstructured rfl rfl hread
    · refine ⟨t, others, htried, hwrites.trans (if_pos ?_)⟩
      decide
    · exact absurd wellFormed_marked hnot
  · have hread : textSite.archive.read textSite.disk "long.txt" = (.ok _, _) := rfl
    obtain ⟨t, others, -, -, -, ⟨hdata, -⟩ | ⟨-, fault, -, -, hstatus, -⟩⟩ :=
      text_written_or_refused hlong hstructured rfl rfl hread
    · exact absurd hdata not_wellFormed_long
    · exact hstatus

end Dispatcher

end ArchiveExport
