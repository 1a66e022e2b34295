import ArchiveExport.Proofs.Export.Files
import ArchiveExport.Proofs.Export.Dispatch

/-!
# What dispatched entries have written

Entries are dispatched one after the other, and each adds its own writes. Together they are what the
disk has got.
-/

namespace ArchiveExport

/-- What became of an entry, and what was written for it. -/
structure Deed where
  outcome : Outcome
  writes : List (String × Bytes)

/-- Entries are dispatched one after the other from a site on, with notes before each of them and
behind the last one; the deeds are theirs, in order. -/
inductive Deeds (d : Dispatcher) (log : Option Path) :
    List (Entry × Mode) → Site → List Deed → Site → Prop
  | done {site last : Site} (hnoted : site.Noted log last) : Deeds d log [] site [] last
  | next {entry : Entry} {mode : Mode} {agenda : List (Entry × Mode)} {deeds : List Deed}
      {site noted last : Site} (hnoted : site.Noted log noted)
      (hrest : Deeds d log agenda ((d.dispatch entry mode).run noted).2 deeds last) :
      Deeds d log ((entry, mode) :: agenda) site
        (⟨((d.dispatch entry mode).run noted).1, (d.dispatch entry mode).writes noted⟩ :: deeds)
        last

variable {d : Dispatcher} {log : Option Path} {agenda : List (Entry × Mode)}
  {outcomes : List Outcome} {deeds : List Deed} {site last : Site}

theorem Dispatched.exists_deeds (h : Dispatched d log agenda site outcomes last) :
    ∃ deeds, Deeds d log agenda site deeds last ∧ outcomes = deeds.map Deed.outcome := by
  induction h with
  | done hnoted => exact ⟨[], .done hnoted, rfl⟩
  | @next entry mode agenda o outcomes site noted left last hnoted hrun _ ih =>
      obtain ⟨deeds, hdeeds, rfl⟩ := ih
      have hleft : ((d.dispatch entry mode).run noted).2 = left := by rw [hrun]
      have ho : ((d.dispatch entry mode).run noted).1 = o := by rw [hrun]
      exact ⟨_, .next hnoted (hleft ▸ hdeeds), by rw [List.map_cons, ho]⟩

namespace Deeds

/-- The writes of all deeds are what the disk has got. -/
theorem wrote (h : Deeds d log agenda site deeds last) (hroot : site.sink.root.Normal) :
    site.Wrote log (deeds.flatMap Deed.writes) last := by
  induction h with
  | done hnoted => exact .of_noted hnoted
  | @next entry mode agenda deeds site noted last hnoted _ ih =>
      have hbefore := Site.Wrote.of_noted hnoted
      have hroot' : noted.sink.root.Normal := hbefore.root ▸ hroot
      have hwrote := (d.dispatch entry mode).wrote_run hroot' log
      have hroot'' : ((d.dispatch entry mode).run noted).2.sink.root.Normal := hwrote.root ▸ hroot'
      have hall := hbefore.trans hroot (hwrote.trans hroot' (ih hroot''))
      rwa [List.nil_append] at hall

/-- Each deed is that of its entry, and its outcome lists its writes. -/
theorem forall₂_agenda (h : Deeds d log agenda site deeds last) :
    List.Forall₂ (fun item deed => deed.outcome.identifier = item.1.identifier ∧
      deed.outcome.outputs = deed.writes.map Prod.fst ∧
      ∃ document images members, deed.writes = document ++ images ++ members ∧
        d.Arranged item.1 item.2 document images members) agenda deeds := by
  induction h with
  | done _ => exact .nil
  | @next entry mode agenda deeds site noted last _ _ ih =>
      obtain ⟨hidentifier, houtputs, -⟩ := d.outcome_dispatch entry mode noted
      exact .cons ⟨hidentifier, houtputs, d.exists_arranged entry mode noted⟩ ih

end Deeds

end ArchiveExport
