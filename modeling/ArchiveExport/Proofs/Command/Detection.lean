import ArchiveExport.Proofs.Command.Verification
import ArchiveExport.Proofs.Export.Confinement
import Mathlib.Data.List.Flatten
import Mathlib.Data.Set.Function

/-!
# What a comparison notices

A record has one digest, that of the octets of all its outputs in the order of their paths. As long
as no two byte strings in question have one digest, an entry counts as unchanged only where all its
outputs are there and hold these octets one behind the other. That octets have moved from one output
to the next is not noticed, unless it shows in their lengths.
-/

namespace ArchiveExport

namespace Checksum

theorem lowered_hexDigit {n : Nat} (h : n < 16) : Text.Lowered (Bytes.hexDigit n) := by
  have hall : ∀ n < 16, Text.Lowered (Bytes.hexDigit n) := by decide
  exact hall n h

/-- A digest is in lower case already. -/
theorem lower_hex (bs : Bytes) : Text.lower (Md5.hex bs) = Md5.hex bs := by
  have hlowered : ∀ c ∈ (Md5.hex bs).toList, Text.Lowered c := by
    intro c hc
    rw [Md5.hex, Bytes.toHex, String.toList_ofList] at hc
    obtain ⟨b, -, hdigit⟩ := List.mem_flatMap.mp hc
    have hb := b.toNat_lt
    simp only [List.mem_cons, List.not_mem_nil, or_false] at hdigit
    rcases hdigit with rfl | rfl
    · exact lowered_hexDigit (by omega)
    · exact lowered_hexDigit (by omega)
  rw [Text.lower, Text.lowerFrom_of_lowered hlowered, String.ofList_toList]

theorem sameDigest_hex_iff {a b : Bytes} :
    sameDigest (some (Md5.hex a)) (some (Md5.hex b)) = true ↔ Md5.hex a = Md5.hex b := by
  rw [sameDigest, lower_hex, lower_hex, decide_eq_true_iff]

end Checksum

namespace Disk

variable {disk : Disk} {working : Path} {text : String} {texts : List String} {data : Bytes}

theorem read_eq_ok (h : disk.read working text = .ok data) :
    ∃ place, disk.locate working text = .ok place ∧ disk.file? place = some data := by
  cases hlocate : disk.locate working text with
  | error fault => simp [read, look, hlocate, bind, Except.bind] at h
  | ok place =>
      refine ⟨place, rfl, ?_⟩
      cases hnode : disk.node? place with
      | none => simp [read, look, hlocate, hnode, bind, Except.bind, throw, throwThe,
          MonadExceptOf.throw] at h
      | some node =>
          cases node with
          | folder => simp [read, look, hlocate, hnode, bind, Except.bind, pure, Except.pure, throw,
              throwThe, MonadExceptOf.throw] at h
          | file found =>
              simp only [read, look, hlocate, hnode, bind, Except.bind, pure, Except.pure,
                Except.ok.injEq] at h
              rw [file?, hnode, h]

/-- Where all of several files can be read, each of them can. -/
theorem forall₂_read_of_mapM {parts : List Bytes}
    (h : (texts.mapM fun text => (disk.read working text).toOption) = some parts) :
    List.Forall₂ (fun text part => disk.read working text = .ok part) texts parts := by
  induction texts generalizing parts with
  | nil =>
      obtain rfl : [] = parts := Option.some.inj h
      exact .nil
  | cons text texts ih =>
      rw [List.mapM_cons] at h
      obtain ⟨first, hfirst, h⟩ := Option.bind_eq_some_iff.mp h
      obtain ⟨rest, hrest, h⟩ := Option.bind_eq_some_iff.mp h
      obtain rfl : first :: rest = parts := Option.some.inj h
      refine .cons ?_ (ih hrest)
      cases hread : disk.read working text with
      | error fault => simp [hread, Except.toOption] at hfirst
      | ok found =>
          rw [hread] at hfirst
          exact congrArg Except.ok (Option.some.inj hfirst)

/-- What several files hold together is made of what each of them holds. -/
theorem concat?_eq_some (h : disk.concat? working texts = some data) :
    ∃ parts, List.Forall₂ (fun text part => disk.read working text = .ok part) texts parts ∧
      parts.flatten = data := by
  rw [concat?] at h
  obtain ⟨parts, hread, h⟩ := Option.bind_eq_some_iff.mp h
  exact ⟨parts, forall₂_read_of_mapM hread, Option.some.inj h⟩

end Disk

namespace Sink

variable {sink : Sink} {path : String} {target : AbsolutePath} {data : Bytes}

/-- What can be read behind the root under a path is the file that the path leads to. -/
theorem file?_of_read_joined (hroot : sink.root.Normal) (hresolve : sink.resolve path = .ok target)
    (hbackslash : '\\' ∉ path.toList) {disk : Disk} {working : Path}
    (hread : disk.read working (sink.joined path) = .ok data) :
    disk.file? target.place = some data := by
  obtain ⟨place, hlocate, hfile⟩ := Disk.read_eq_ok hread
  obtain ⟨habsolute, -, hfollow⟩ := AbsolutePath.foldl_join (AbsolutePath.isAbsolute_text hroot)
    fun piece (hpiece : piece ∈ Text.split '/' path) => Text.not_mem_of_mem_split hpiece
  obtain ⟨-, -, -, hwalk⟩ := Disk.locate_eq_ok_iff.mp hlocate
  rw [joined, if_pos habsolute] at hwalk
  obtain ⟨hplace, -⟩ := Disk.walk_eq_ok_iff.mp hwalk
  rw [hfollow, AbsolutePath.follow_split_root hroot, ← place_of_noBackslash hbackslash] at hplace
  rw [(normal_of_resolve hroot hresolve).2.1, ← hplace, hfile]

/-- Some files hold what is named, in the order of the writes that they are the files of. -/
def Finds (sink : Sink) (left : Disk) (writes : List (String × Bytes)) (now : List Bytes) : Prop :=
  List.Forall₂ (fun w data => ∃ target, sink.resolve w.1 = .ok target ∧
    left.file? target.place = some data) writes now

theorem ne_empty_of_resolve (h : sink.resolve path = .ok target) : path ≠ "" := by
  rintro rfl
  obtain ⟨-, -, hne, -⟩ := resolve_eq_ok_iff.mp h
  exact hne (place_of_noBackslash (by decide))

end Sink

namespace Command.VerifyOptions

variable {s t : Session} {l : Ledger} {outputs : List String} {left : Disk} {working : Path}
  {r : Ledger.Run} {record : Ledger.Record} {records : List Ledger.Record} {sink : Sink}
  {writes : List (String × Bytes)}

/-- An entry counts as unchanged: it has a digest, and its outputs have that digest. -/
theorem isIntact_of_not_changed (hchecked : record ∈ checked records)
    (hsame : record ∉ changed left working r records) :
    isIntact left working r record = true := by
  by_contra hdiffers
  exact hsame (List.mem_filter.mpr ⟨hchecked, by simpa using hdiffers⟩)

/-- The outputs of an intact record are files, and their octets one behind the other have the digest
of those that were written. -/
theorem exists_found_of_isIntact (hroot : sink.root.Normal)
    (hfolder : r.outputFolder = sink.root.text) (htells : record.Tells writes)
    (hpaths : record.paths = writes.map Prod.fst)
    (hwrites : ∀ w ∈ writes, '\\' ∉ w.1.toList ∧ ∃ target, sink.resolve w.1 = .ok target)
    (hintact : isIntact left working r record = true) :
    ∃ now, sink.Finds left writes now ∧
      Checksum.Md5.hex now.flatten = Checksum.Md5.hex (writes.flatMap Prod.snd) := by
  have htext : outputText r = sink.joined := by
    funext path
    rw [outputText, hfolder, Sink.joined]
  rw [isIntact, hpaths, htext, htells.digest, Disk.digest?] at hintact
  cases hread : left.concat? working ((writes.map Prod.fst).map sink.joined) with
  | none =>
      rw [hread] at hintact
      simp [Checksum.sameDigest] at hintact
  | some data =>
      have hdigest : digestOf writes = some (Checksum.Md5.hex (writes.flatMap Prod.snd)) := by
        rw [digestOf] at hintact ⊢
        split at hintact
        · simp [Checksum.sameDigest] at hintact
        · next hne => rw [if_neg hne]
      rw [hread, Option.map_some, hdigest, Checksum.sameDigest_hex_iff] at hintact
      obtain ⟨now, hparts, rfl⟩ := Disk.concat?_eq_some hread
      rw [List.map_map, List.forall₂_map_left_iff] at hparts
      have hboth := (List.forall₂_and_left writes now).mpr ⟨hwrites, hparts⟩
      refine ⟨now, hboth.imp fun w data hw => ?_, hintact⟩
      obtain ⟨⟨hbackslash, target, htarget⟩, hread⟩ := hw
      exact ⟨target, htarget, Sink.file?_of_read_joined hroot htarget hbackslash hread⟩

/-- Octets that are the same one behind the other are the same one by one, if there is one lot of
them or if each lot is as long as it was. -/
theorem eq_of_flatten_eq {now : List Bytes} (hfound : sink.Finds left writes now)
    (hflat : now.flatten = writes.flatMap Prod.snd)
    (hlengths : writes.length = 1 ∨ now.map List.length = writes.map fun w => w.2.length) :
    now = writes.map Prod.snd := by
  rw [List.flatMap_def] at hflat
  rcases hlengths with hone | hlengths
  · obtain ⟨w, rfl⟩ := List.length_eq_one_iff.mp hone
    obtain ⟨data, rfl⟩ := List.length_eq_one_iff.mp (hfound.length_eq.symm.trans hone)
    simpa using hflat
  · rw [List.eq_iff_flatten_eq, List.map_map]
    exact ⟨hflat, hlengths⟩

/-- Let a run with a ledger write outputs that go to different files, and let what is on the disk
change in any way. The comparison counts each record that has a digest, and names those of them that
are changed. Any other one has all its outputs on the disk, and what they hold one behind the other
has the digest of what was written. So among octets that no two lots of have one digest, it is what
was written; and if the record has one output, or each output is as long as it was, every output
holds what was written to it. -/
theorem compare_detects {e : Exporter} {s t : Session} {l : Ledger} {outputs : List String}
    (hrun : e.Runs s t) (hledger : s.ledger = some l) (hlisted : l.Listed)
    (hroot : s.site.sink.root.Normal)
    (houtputs : t.site.sink.written = s.site.sink.written ++ outputs)
    (hapart : outputs.Pairwise fun a b => s.site.sink.resolve a ≠ s.site.sink.resolve b)
    (hplain : ∀ path ∈ outputs, '\n' ∉ path.toList ∧ '\\' ∉ path.toList) :
    ∃ kept r, t.ledger = some kept ∧ kept.run? t.run = some r ∧ r.id = t.run ∧
      (∀ machine left console, (compare r (kept.recordsOf t.run)).start machine ⟨left, console⟩ =
        if changed left machine.working.place r (kept.recordsOf t.run) = [] then
          (.ok .done, ⟨left, console.printDone
            s!"{(checked (kept.recordsOf t.run)).length} entries match the ledger"⟩)
        else
          (.ok .incomplete,
            ⟨left, ((changed left machine.working.place r (kept.recordsOf t.run)).foldl
              (fun c record => c.printWarning s!"Changed or missing: {record.identifier}")
              console).printError s!"{(changed left machine.working.place r
                (kept.recordsOf t.run)).length} of {
                (checked (kept.recordsOf t.run)).length} entries differ from the ledger"⟩)) ∧
      ∀ record ∈ checked (kept.recordsOf t.run), ∃ writes : List (String × Bytes),
        record.paths = writes.map Prod.fst ∧
        (∀ w ∈ writes, w.1 ∈ outputs ∧ ∃ target, s.site.sink.resolve w.1 = .ok target ∧
          (s.log ≠ some target.place → t.site.disk.file? target.place = some w.2)) ∧
        ∀ left working, record ∉ changed left working r (kept.recordsOf t.run) →
          ∃ now, s.site.sink.Finds left writes now ∧
            Checksum.Md5.hex now.flatten = Checksum.Md5.hex (writes.flatMap Prod.snd) ∧
            ∀ texts : Set Bytes, Set.InjOn Checksum.Md5.hex texts →
              writes.flatMap Prod.snd ∈ texts → now.flatten ∈ texts →
                now.flatten = writes.flatMap Prod.snd ∧
                (writes.length = 1 ∨ (now.map List.length = writes.map fun w => w.2.length) →
                  now = writes.map Prod.snd) := by
  obtain ⟨done, kept, r, hbooked⟩ := hrun.exists_booked hroot hledger hlisted
  have hwrote := hbooked.wrote
  obtain rfl : outputs = done.flatten.map Prod.fst := by
    have hwritten := hwrote.written
    rw [houtputs] at hwritten
    exact List.append_cancel_left hwritten
  refine ⟨kept, r, hbooked.ledger, hbooked.run, hbooked.id,
    fun machine left console => start_compare machine console left r _, fun record hchecked => ?_⟩
  obtain ⟨writes, hwrites, htells⟩ :=
    exists_of_forall₂ hbooked.records (List.mem_filter.mp hchecked).1
  have hmem : ∀ w ∈ writes, w ∈ done.flatten :=
    fun w hw => List.mem_flatten.mpr ⟨writes, hwrites, hw⟩
  have houtput : ∀ w ∈ writes, w.1 ∈ done.flatten.map Prod.fst :=
    fun w hw => List.mem_map_of_mem (hmem w hw)
  have hresolved : ∀ w ∈ writes,
      '\\' ∉ w.1.toList ∧ ∃ target, s.site.sink.resolve w.1 = .ok target :=
    fun w hw => ⟨(hplain w.1 (houtput w hw)).2, hwrote.resolved w (hmem w hw)⟩
  have hpaths : record.paths = writes.map Prod.fst := by
    refine Ledger.Record.paths_of_outputs htells.outputs fun path hpath => ?_
    obtain ⟨w, hw, rfl⟩ := List.mem_map.mp hpath
    obtain ⟨-, target, htarget⟩ := hresolved w hw
    exact ⟨Sink.ne_empty_of_resolve htarget, (hplain w.1 (houtput w hw)).1⟩
  refine ⟨writes, hpaths, fun w hw => ⟨houtput w hw, ?_⟩, fun left working hsame => ?_⟩
  · obtain ⟨-, target, htarget⟩ := hresolved w hw
    have hplace := (Sink.normal_of_resolve hroot htarget).2.1
    refine ⟨target, htarget, ?_⟩
    rw [hplace]
    -- no other output of the run goes to this file, so the run leaves it as it wrote it
    exact hwrote.held (hwrote.nodup_of_resolve hapart) w (hmem w hw)
  · obtain ⟨now, hfound, hdigest⟩ := exists_found_of_isIntact hroot hbooked.folder htells hpaths
      hresolved (isIntact_of_not_changed hchecked hsame)
    refine ⟨now, hfound, hdigest, fun texts hinjective hwritten hnow => ?_⟩
    -- only here does a digest have to tell octets apart
    have hflat := hinjective hnow hwritten hdigest
    exact ⟨hflat, eq_of_flatten_eq hfound hflat⟩

theorem compare_detects_of_copiedTwice :
    copiedTwice.site.sink.written = ["a.ini.txt", "a.ini"] ∧
      ∃ kept r, copiedTwice.ledger = some kept ∧ kept.run? copiedTwice.run = some r ∧
        ∀ record ∈ checked (kept.recordsOf copiedTwice.run), ∃ writes : List (String × Bytes),
          record.paths = writes.map Prod.fst ∧
          ∀ left working, record ∉ changed left working r (kept.recordsOf copiedTwice.run) →
            ∃ now, twoOctets.site.sink.Finds left writes now ∧
              Checksum.Md5.hex now.flatten = Checksum.Md5.hex (writes.flatMap Prod.snd) := by
  obtain ⟨kept, r, hledger, hfound, -, -, hdetected⟩ :=
    compare_detects (s := twoOctets) (t := copiedTwice) (.patterns ["a.ini"] _) rfl
      (by decide) (by decide) written_copiedTwice (by decide) (by decide)
  refine ⟨written_copiedTwice, kept, r, hledger, hfound, fun record hchecked => ?_⟩
  obtain ⟨writes, hpaths, -, hsame⟩ := hdetected record hchecked
  refine ⟨writes, hpaths, fun left working hunchanged => ?_⟩
  obtain ⟨now, hfound, hdigest, -⟩ := hsame left working hunchanged
  exact ⟨now, hfound, hdigest⟩

/-- The disk once an octet has gone from one output to the other. -/
def octetMoved : Disk :=
  (copiedTwice.site.disk.put ["out", "a.ini.txt"] (.file [49, 50, 49])).put ["out", "a.ini"]
    (.file [50])

/-- The entry still counts as unchanged, although neither of its outputs holds what was written. -/
theorem compare_matches_of_octetMoved :
    (copiedTwice.ledger.map fun ledger =>
        (checked (ledger.recordsOf copiedTwice.run)).map Ledger.Record.paths) =
          some [["a.ini.txt", "a.ini"]] ∧
      copiedTwice.site.sink.resolve "a.ini.txt" = .ok ⟨"/", ["out", "a.ini.txt"]⟩ ∧
      copiedTwice.site.sink.resolve "a.ini" = .ok ⟨"/", ["out", "a.ini"]⟩ ∧
      copiedTwice.site.disk.file? ["out", "a.ini.txt"] = some [49, 50] ∧
      copiedTwice.site.disk.file? ["out", "a.ini"] = some [49, 50] ∧
      octetMoved.file? ["out", "a.ini.txt"] = some [49, 50, 49] ∧
      octetMoved.file? ["out", "a.ini"] = some [50] ∧
      comparedAtOnce ⟨{}, ⟨"/", []⟩, ⟨0⟩, "", "", {}, .plain⟩
        { copiedTwice with site := { copiedTwice.site with disk := octetMoved } } =
          some (.ok .done) := by
  unfold octetMoved copiedTwice
  rw [Exporter.plainExporter_eq_spelled]
  decide +kernel

end Command.VerifyOptions

end ArchiveExport
