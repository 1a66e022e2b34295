import ArchiveExport.Command.History
import ArchiveExport.Proofs.Export.Pattern
import ArchiveExport.Proofs.Export.Recorded

/-!
# Comparing a run with its outputs

A record names its outputs by their paths, one to a line. Where each path fits on a line and leads
where it was written, outputs that nobody has touched compare well with the records of their run.
-/

namespace ArchiveExport

/-- Files that are there have the octets of all of them, one behind the other. -/
theorem Disk.concat?_of_read {disk : Disk} {working : Path} {textOf : String → String}
    {writes : List (String × Bytes)}
    (h : ∀ w ∈ writes, disk.read working (textOf w.1) = .ok w.2) :
    disk.concat? working ((writes.map Prod.fst).map textOf) = some (writes.flatMap Prod.snd) := by
  have hparts : ((writes.map Prod.fst).map textOf).mapM
      (fun text => (disk.read working text).toOption) = some (writes.map Prod.snd) := by
    induction writes with
    | nil => rfl
    | cons w writes ih =>
        have hfirst := h w List.mem_cons_self
        have hrest := ih fun other hother => h other (List.mem_cons_of_mem _ hother)
        rw [List.map_cons, List.map_cons, List.mapM_cons, hfirst, hrest]
        rfl
  rw [concat?, hparts, List.flatMap_def]
  rfl

theorem Checksum.sameDigest_self (digest : String) :
    sameDigest (some digest) (some digest) = true := by
  simp [sameDigest]

namespace Sink

/-- The text of a path behind that of the root, piece by piece. -/
def joined (sink : Sink) (path : String) : String :=
  (Text.split '/' path).foldl Path.join sink.root.text

/-- A path that fits on a line and that can be followed from the root. -/
structure Traceable (sink : Sink) (path : String) : Prop where
  oneLine : '\n' ∉ path.toList
  descends : Path.Descends path
  size : (sink.joined path).utf8ByteSize ≤ Disk.maxText

instance (sink : Sink) (path : String) : Decidable (sink.Traceable path) :=
  decidable_of_iff ('\n' ∉ path.toList ∧ Path.Descends path ∧
      (sink.joined path).utf8ByteSize ≤ Disk.maxText)
    ⟨fun ⟨hline, hdescends, hsize⟩ => ⟨hline, hdescends, hsize⟩,
      fun h => ⟨h.oneLine, h.descends, h.size⟩⟩

theorem Traceable.ne_empty {sink : Sink} {path : String} (h : sink.Traceable path) : path ≠ "" := by
  rintro rfl
  exact h.descends.isName.ne_empty rfl

end Sink

namespace Site.Wrote

variable {log : Option Path} {writes : List (String × Bytes)} {site last : Site} {left : Disk}

/-- Writes that go to different files go to different places. -/
theorem nodup_of_resolve (h : site.Wrote log writes last)
    (hapart : (writes.map Prod.fst).Pairwise
      fun a b => site.sink.resolve a ≠ site.sink.resolve b) :
    (writes.map fun w => site.sink.place w.1).Nodup := by
  refine List.pairwise_map.mpr ((List.pairwise_map.mp hapart).imp_of_mem fun ha _ hne hsame => ?_)
  obtain ⟨target, htarget⟩ := h.resolved _ ha
  exact hne (htarget.trans (Sink.resolve_of_place_eq htarget hsame).symm)

/-- What was written is still found where the disk is as it was left. -/
theorem locate_joined (hroot : site.sink.root.Normal) (h : site.Wrote log writes last)
    {w : String × Bytes} (hw : w ∈ writes) (htraceable : site.sink.Traceable w.1)
    (hlog : ∀ above, above <+: site.sink.place w.1 → log ≠ some above)
    (hleft : ∀ above, above <+: site.sink.place w.1 → left.node? above = last.disk.node? above) :
    ∃ target, site.sink.resolve w.1 = .ok target ∧
      ∀ working, left.locate working (site.sink.joined w.1) = .ok target.place := by
  obtain ⟨target, htarget⟩ := h.resolved w hw
  obtain ⟨hnormal, hplace, hne⟩ := Sink.normal_of_resolve hroot htarget
  obtain ⟨hrootne, -⟩ := Sink.resolve_eq_ok_iff.mp htarget
  have hlocate := Disk.locate_text_of_folders (e := left) hnormal hne
    (h.reached w hw target htarget (hplace ▸ hlog))
    (fun above habove hfolder => by rwa [hleft above (hplace ▸ habove)]) []
  exact ⟨target, htarget, Disk.locate_foldl_join hroot hrootne hnormal htraceable.descends
    (hplace.trans (Sink.place_of_noBackslash htraceable.descends.noBackslash)) htraceable.size
    hlocate⟩

theorem read_joined (hroot : site.sink.root.Normal) (h : site.Wrote log writes last)
    (hapart : (writes.map fun w => site.sink.place w.1).Nodup) {w : String × Bytes}
    (hw : w ∈ writes) (htraceable : site.sink.Traceable w.1)
    (hlog : ∀ above, above <+: site.sink.place w.1 → log ≠ some above)
    (hleft : ∀ above, above <+: site.sink.place w.1 → left.node? above = last.disk.node? above)
    (working : Path) : left.read working (site.sink.joined w.1) = .ok w.2 := by
  obtain ⟨target, htarget, hlocate⟩ := h.locate_joined hroot hw htraceable hlog hleft
  have hplace := (Sink.normal_of_resolve hroot htarget).2.1
  have hheld := h.held hapart w hw (hlog _ List.prefix_rfl)
  refine Disk.read_of_locate (hlocate working) ?_
  rw [hplace, Disk.file?, hleft _ List.prefix_rfl]
  exact hheld

end Site.Wrote

namespace Command

/-! ### Comparing -/

namespace Action

variable {α β : Type} (machine : Machine) (w : Workspace)

theorem start_bind (action : Action α) (next : α → Action β) :
    (action >>= next).start machine w =
      match action.start machine w with
      | (.ok value, w) => (next value).start machine w
      | (.error fault, w) => (.error fault, w) := by
  change (ExceptT.bindCont (fun value => next value machine) (action.start machine w).1).run
      (action.start machine w).2 = _
  rcases action.start machine w with ⟨fault | value, w⟩ <;> rfl

theorem start_get : (MonadState.get : Action Workspace).start machine w = (.ok w, w) := rfl

theorem start_read : (read : Action Machine).start machine w = (.ok machine, w) := rfl

theorem start_forM_onConsole (print : β → Console → Console) (items : List β) :
    (items.forM fun item => onConsole (print item)).start machine w =
      (.ok (), { w with console := items.foldl (fun c item => print item c) w.console }) := by
  induction items generalizing w with
  | nil => rfl
  | cons item items ih =>
      have hcons : ((item :: items).forM fun item => onConsole (print item)) =
          onConsole (print item) >>= fun _ => items.forM fun item => onConsole (print item) := rfl
      rw [hcons, start_bind]
      exact ih { w with console := print item w.console }

end Action

namespace VerifyOptions

variable {r : Ledger.Run} {record : Ledger.Record} {records : List Ledger.Record} {sink : Sink}
  {writes : List (String × Bytes)} {done : List (List (String × Bytes))} {left : Disk}

/-- The records that have a digest to compare. -/
def checked (records : List Ledger.Record) : List Ledger.Record :=
  records.filter fun record => (record.digest.filter (· ≠ "")).isSome

/-- The records among them whose files do not have their digest. -/
def changed (left : Disk) (working : Path) (r : Ledger.Run) (records : List Ledger.Record) :
    List Ledger.Record :=
  (checked records).filter fun record => !isIntact left working r record

/-- A comparison names the changed records and counts them and the checked ones. -/
theorem start_compare (machine : Machine) (console : Console) (left : Disk) (r : Ledger.Run)
    (records : List Ledger.Record) :
    (compare r records).start machine ⟨left, console⟩ =
      if changed left machine.working.place r records = [] then
        (.ok .done,
          ⟨left, console.printDone s!"{(checked records).length} entries match the ledger"⟩)
      else
        (.ok .incomplete,
          ⟨left, ((changed left machine.working.place r records).foldl
            (fun c record => c.printWarning s!"Changed or missing: {record.identifier}")
            console).printError s!"{(changed left machine.working.place r records).length} of {
              (checked records).length} entries differ from the ledger"⟩) := by
  have hwarned := Action.start_forM_onConsole machine ⟨left, console⟩
    (fun (record : Ledger.Record) c => c.printWarning s!"Changed or missing: {record.identifier}")
    (changed left machine.working.place r records)
  simp only [compare, Action.start_bind, Action.start_get, Action.start_read, ← checked.eq_1,
    ← changed.eq_1, Action.printWarning, hwarned]
  cases changed left machine.working.place r records with
  | nil => rfl
  | cons record others => rfl

/-- Records that are all intact match. -/
theorem start_compare_of_intact (machine : Machine) (console : Console)
    (h : ∀ record ∈ checked records, isIntact left machine.working.place r record = true) :
    (compare r records).start machine ⟨left, console⟩ =
      (.ok .done,
        ⟨left, console.printDone s!"{(checked records).length} entries match the ledger"⟩) := by
  have hchanged : changed left machine.working.place r records = [] := by
    rw [changed, List.filter_eq_nil_iff]
    intro record hrecord
    simp [h record hrecord]
  rw [start_compare, if_pos hchanged]

/-- The paths of a record's writes can be read back. -/
theorem paths_of_tells (h : record.Tells writes) (htraceable : ∀ w ∈ writes, sink.Traceable w.1) :
    record.paths = writes.map Prod.fst :=
  Ledger.Record.paths_of_outputs h.outputs fun path hpath => by
    obtain ⟨w, hw, rfl⟩ := List.mem_map.mp hpath
    exact ⟨(htraceable w hw).ne_empty, (htraceable w hw).oneLine⟩

theorem flatMap_paths_of_tells
    (h : List.Forall₂ (fun writes record => Ledger.Record.Tells record writes) done records)
    (htraceable : ∀ w ∈ done.flatten, sink.Traceable w.1) :
    records.flatMap Ledger.Record.paths = done.flatten.map Prod.fst := by
  induction h with
  | nil => rfl
  | cons htells _ ih =>
      rw [List.flatten_cons, List.forall_mem_append] at htraceable
      rw [List.flatMap_cons, List.flatten_cons, List.map_append,
        paths_of_tells htells htraceable.1, ih htraceable.2]

/-- Where its files are still there, a record has their digest. -/
theorem digest?_of_tells (h : record.Tells writes) (hfolder : r.outputFolder = sink.root.text)
    (htraceable : ∀ w ∈ writes, sink.Traceable w.1) {working : Path}
    (hread : ∀ w ∈ writes, left.read working (sink.joined w.1) = .ok w.2)
    (hdigest : record.digest.isSome) :
    left.digest? working (record.paths.map (outputText r)) = record.digest := by
  have htext : outputText r = sink.joined := by
    funext path
    rw [outputText, hfolder, Sink.joined]
  rw [h.digest, digestOf] at hdigest ⊢
  split at hdigest
  · simp at hdigest
  · next hwrites =>
      rw [if_neg hwrites, paths_of_tells h htraceable, htext, Disk.digest?,
        Disk.concat?_of_read hread, Option.map_some]

/-- Let a run with a ledger write outputs that go to different files, and let nothing touch these
files. If each of their paths is traceable (it fits on a line, has no backslash in it, never goes
up, ends in a name and is not too long behind the root), then the paths that the records of the run
hold are those that were written, in order, each of them leads to its file, and the octets of the
files have the digest that is recorded. The run compares well. -/
theorem compare_matches {e : Exporter} {s t : Session} {l : Ledger} {outputs : List String}
    {left : Disk} (hrun : e.Runs s t) (hledger : s.ledger = some l) (hlisted : l.Listed)
    (hroot : s.site.sink.root.Normal)
    (houtputs : t.site.sink.written = s.site.sink.written ++ outputs)
    (hapart : outputs.Pairwise fun a b => s.site.sink.resolve a ≠ s.site.sink.resolve b)
    (hlog : ∀ path ∈ outputs, ∀ above, above <+: s.site.sink.place path → s.log ≠ some above)
    (hleft : ∀ path ∈ outputs, ∀ above, above <+: s.site.sink.place path →
      left.node? above = t.site.disk.node? above)
    (htraceable : ∀ path ∈ outputs, s.site.sink.Traceable path) :
    ∃ kept r, t.ledger = some kept ∧ kept.run? t.run = some r ∧ r.id = t.run ∧
      (kept.recordsOf t.run).flatMap Ledger.Record.paths = outputs ∧
      (∀ path ∈ outputs, ∃ target, s.site.sink.resolve path = .ok target ∧
        ∀ working, left.locate working (outputText r path) = .ok target.place) ∧
      (∀ record ∈ kept.recordsOf t.run, record.digest.isSome → ∀ working,
        left.digest? working (record.paths.map (outputText r)) = record.digest) ∧
      ∀ machine console, (compare r (kept.recordsOf t.run)).start machine ⟨left, console⟩ =
        (.ok .done, ⟨left, console.printDone
          s!"{(checked (kept.recordsOf t.run)).length} entries match the ledger"⟩) := by
  obtain ⟨done, kept, r, hbooked⟩ := hrun.exists_booked hroot hledger hlisted
  have hwrote := hbooked.wrote
  obtain rfl : outputs = done.flatten.map Prod.fst := by
    have hwritten := hwrote.written
    rw [houtputs] at hwritten
    exact List.append_cancel_left hwritten
  have hpath : ∀ w ∈ done.flatten, w.1 ∈ done.flatten.map Prod.fst :=
    fun w hw => List.mem_map_of_mem hw
  have htraced : ∀ w ∈ done.flatten, s.site.sink.Traceable w.1 :=
    fun w hw => htraceable w.1 (hpath w hw)
  have hplaces := hwrote.nodup_of_resolve hapart
  have hread : ∀ working, ∀ w ∈ done.flatten,
      left.read working (s.site.sink.joined w.1) = .ok w.2 := fun working w hw =>
    hwrote.read_joined hroot hplaces hw (htraced w hw) (hlog w.1 (hpath w hw))
      (hleft w.1 (hpath w hw)) working
  have hdigest : ∀ record ∈ kept.recordsOf t.run, record.digest.isSome → ∀ working,
      left.digest? working (record.paths.map (outputText r)) = record.digest := by
    intro record hrecord hsome working
    obtain ⟨writes, hwrites, htells⟩ := exists_of_forall₂ hbooked.records hrecord
    have hmem : ∀ w ∈ writes, w ∈ done.flatten :=
      fun w hw => List.mem_flatten.mpr ⟨writes, hwrites, hw⟩
    exact digest?_of_tells htells hbooked.folder (fun w hw => htraced w (hmem w hw))
      (fun w hw => hread working w (hmem w hw)) hsome
  refine ⟨kept, r, hbooked.ledger, hbooked.run, hbooked.id,
    flatMap_paths_of_tells hbooked.records htraced, ?_, hdigest, ?_⟩
  · intro path hwritten
    obtain ⟨w, hw, rfl⟩ := List.mem_map.mp hwritten
    have htext : outputText r w.1 = s.site.sink.joined w.1 := by
      rw [outputText, hbooked.folder, Sink.joined]
    rw [htext]
    exact hwrote.locate_joined hroot hw (htraced w hw) (hlog w.1 hwritten) (hleft w.1 hwritten)
  · intro machine console
    refine start_compare_of_intact machine console fun record hrecord => ?_
    obtain ⟨hmem, hsome⟩ := List.mem_filter.mp hrecord
    obtain ⟨digest, hfound⟩ : ∃ digest, record.digest = some digest := by
      cases hrecorded : record.digest with
      | none => simp [hrecorded] at hsome
      | some digest => exact ⟨digest, rfl⟩
    rw [isIntact, hdigest record hmem (by simp [hfound]), hfound]
    exact Checksum.sameDigest_self digest

/-- A session with a ledger, on a text of two octets. -/
def twoOctets : Session :=
  { Exporter.folderSession [("a.ini", [49, 50])] { raw := true, structured := true } with
    ledger := some .empty }

/-- What it leaves once the text has been exported both as it is and as a text. -/
def copiedTwice : Session :=
  (Exporter.plainExporter.runPatterns ["a.ini"] { raw := true, structured := true } twoOctets).1

theorem written_copiedTwice : copiedTwice.site.sink.written = ["a.ini.txt", "a.ini"] := by
  rw [copiedTwice, Exporter.plainExporter_eq_spelled]
  decide +kernel

theorem compare_matches_of_copiedTwice :
    ∃ kept r, copiedTwice.ledger = some kept ∧ kept.run? copiedTwice.run = some r ∧
      (kept.recordsOf copiedTwice.run).flatMap Ledger.Record.paths = ["a.ini.txt", "a.ini"] ∧
      (∀ path ∈ ["a.ini.txt", "a.ini"], ∃ target,
        twoOctets.site.sink.resolve path = .ok target ∧
          ∀ working, copiedTwice.site.disk.locate working (outputText r path) =
            .ok target.place) ∧
      (∀ record ∈ kept.recordsOf copiedTwice.run, record.digest.isSome → ∀ working,
        copiedTwice.site.disk.digest? working (record.paths.map (outputText r)) =
          record.digest) ∧
      ∀ machine console,
        (compare r (kept.recordsOf copiedTwice.run)).start machine
            ⟨copiedTwice.site.disk, console⟩ =
          (.ok .done, ⟨copiedTwice.site.disk, console.printDone
            s!"{(checked (kept.recordsOf copiedTwice.run)).length} entries match the ledger"⟩) := by
  obtain ⟨kept, r, hledger, hfound, -, hpaths, hplaces, hdigests, hcompare⟩ :=
    compare_matches (s := twoOctets) (t := copiedTwice)
      (.patterns ["a.ini"] _) rfl (by decide) (by decide) written_copiedTwice (by decide)
      (fun _ _ _ _ => (Option.some_ne_none _).symm) (fun _ _ _ _ => rfl) (by decide)
  exact ⟨kept, r, hledger, hfound, hpaths, hplaces, hdigests, hcompare⟩

/-- How a comparison ends that follows upon the last run of a session. -/
def comparedAtOnce (machine : Machine) (t : Session) : Option (Except Fault Exit) := do
  let ledger ← t.ledger
  let r ← ledger.run? t.run
  return ((compare r (ledger.recordsOf t.run)).start machine ⟨t.site.disk, t.site.console⟩).1

/-- A session with a ledger, on a folder with one file. -/
def oneFile (name : String) : Session :=
  { Exporter.folderSession [(name, [49])] { raw := true, structured := false } with
    ledger := some .empty }

/-- What the session leaves once the file has been exported as it is. -/
def exported (name : String) : Session :=
  (Exporter.plainExporter.runPatterns [name] { raw := true, structured := false }
    (oneFile name)).1

/-- The path of a file whose name has a line feed in it is read back as two paths, and neither of
them leads to the output. -/
theorem compare_differs_of_lineFeed :
    (exported "a\nb.bin").site.sink.written = ["a\nb.bin"] ∧
      (exported "a\nb.bin").site.sink.resolve "a\nb.bin" = .ok ⟨"/", ["out", "a\nb.bin"]⟩ ∧
      (exported "a\nb.bin").site.disk.file? ["out", "a\nb.bin"] = some [49] ∧
      ((exported "a\nb.bin").ledger.map fun ledger =>
        (ledger.recordsOf (exported "a\nb.bin").run).map Ledger.Record.paths) =
          some [["a", "b.bin"]] ∧
      comparedAtOnce ⟨{}, ⟨"/", []⟩, ⟨0⟩, "", "", {}, .plain⟩ (exported "a\nb.bin") =
        some (.ok .incomplete) := by
  decide +kernel

end VerifyOptions

end Command

end ArchiveExport
