import ArchiveExport.Proofs.Archive.Presence
import ArchiveExport.Proofs.Data.Alignment
import ArchiveExport.Proofs.Export.Conflicts
import ArchiveExport.Proofs.Export.Deeds
import ArchiveExport.Proofs.Export.Script

/-!
# Scripts that are run twice

A second run of a script starts with the files and folders that the first one has left, and with
what the archive has cached. None of this makes a difference: every access is answered as before, so
the outcomes are the same, and each file is written over until it holds what it held.
-/

namespace ArchiveExport

variable {log : Option Path} {writes later : List (String × Bytes)} {site middle last : Site}

/-! ### What is last written -/

namespace Sink

/-- What is last written to a place. -/
def lastAt (sink : Sink) (writes : List (String × Bytes)) (place : Path) : Option Bytes :=
  (OrderedMap.ofList (writes.map fun w => (sink.place w.1, w.2))).find? place

theorem lastAt_nil (sink : Sink) (place : Path) : sink.lastAt [] place = none := rfl

theorem lastAt_singleton (sink : Sink) (path : String) (data : Bytes) (place : Path) :
    sink.lastAt [(path, data)] place = if place = sink.place path then some data else none := by
  rw [lastAt, OrderedMap.find?_ofList]
  by_cases hplace : place = sink.place path
  · simp [hplace]
  · simp [hplace, Ne.symm hplace]

theorem lastAt_append (sink : Sink) (writes later : List (String × Bytes)) (place : Path) :
    sink.lastAt (writes ++ later) place =
      (sink.lastAt later place).or (sink.lastAt writes place) := by
  simp only [lastAt, OrderedMap.find?_ofList, List.map_append, List.reverse_append,
    List.find?_append, Option.map_or]

theorem lastAt_congr {sink other : Sink} (h : other.root = sink.root)
    (writes : List (String × Bytes)) (place : Path) :
    other.lastAt writes place = sink.lastAt writes place := by
  have hplace : ∀ path, other.place path = sink.place path := fun path => by
    rw [Sink.place_eq_follow, Sink.place_eq_follow, h]
  simp only [lastAt, hplace]

end Sink

namespace Site

/-! ### The first time -/

/-- Some writes were made from the first site to the second one: the files hold what was last
written to them, and in the output folder nothing has given way to another kind of thing. -/
structure Filled (log : Option Path) (writes : List (String × Bytes)) (site last : Site) :
    Prop where
  root : last.sink.root = site.sink.root
  file?_eq : ∀ place, log ≠ some place →
    last.disk.file? place = (site.sink.lastAt writes place).or (site.disk.file? place)
  upholds : (∀ noted ∈ log, site.sink.root.place.Apart noted) →
    site.disk.Upholds site.sink.root.place last.disk

/-- Places at or above or below another one are not apart from it. -/
theorem log_ne_of_apart {root : Path} (hlog : ∀ noted ∈ log, root.Apart noted) {other : Path}
    (hother : other <+: root ∨ root <+: other) : log ≠ some other := by
  intro hsame
  obtain ⟨hbelow, habove⟩ := hlog other hsame
  rcases hother with hup | hdown
  · exact habove hup
  · exact hbelow hdown

theorem Noted.sameShape (h : site.Noted log last) : site.disk.SameShape log last.disk :=
  fun _ hother => Or.inl (h.node? hother)

namespace Filled

theorem of_same (hsink : last.sink = site.sink) (hdisk : last.disk = site.disk) :
    site.Filled log [] last where
  root := by rw [hsink]
  file?_eq := fun place _ => by rw [hdisk, Sink.lastAt_nil, Option.none_or]
  upholds := fun _ => hdisk ▸ .refl _ _

theorem of_noted (h : site.Noted log last) : site.Filled log [] last where
  root := by rw [h.sink]
  file?_eq := fun place hplace => by
    rw [Disk.file?, h.node? hplace, Sink.lastAt_nil, Option.none_or, Disk.file?]
  upholds := fun hlog => h.sameShape.upholds _ fun _ hother => log_ne_of_apart hlog hother

theorem trans (h : site.Filled log writes middle) (h' : middle.Filled log later last) :
    site.Filled log (writes ++ later) last where
  root := h'.root.trans h.root
  file?_eq := fun place hplace => by
    rw [h'.file?_eq place hplace, h.file?_eq place hplace, Sink.lastAt_congr h.root,
      Sink.lastAt_append, Option.or_assoc]
  upholds := fun hlog => by
    have hrest := h'.upholds (h.root ▸ hlog)
    rw [h.root] at hrest
    exact (h.upholds hlog).trans hrest

theorem of_write (hroot : site.sink.root.Normal) (log : Option Path) (path : String)
    (data : Bytes) {sink : Sink} {disk : Disk} {answer : Except Sink.Fault AbsolutePath}
    (hwrite : site.sink.write site.disk path data = (sink, disk, answer)) :
    site.Filled log (if answer.isOk then [(path, data)] else []) { site with sink, disk } where
  root := by
    have hkept := (Sink.written_write site.sink site.disk path data).1
    rw [hwrite] at hkept
    exact hkept
  file?_eq := by
    intro place _
    obtain ⟨grown, hgrows, hcases⟩ := Sink.write_cases hroot site.disk path data
    rcases hcases with ⟨fault, hfault⟩ | ⟨target, -, -, hplace, hne, -, -, haccepted⟩
    · obtain ⟨rfl, rfl, rfl⟩ : sink = site.sink ∧ disk = grown ∧ answer = .error fault := by
        simpa using hwrite.symm.trans hfault
      exact hgrows.file? place
    · obtain ⟨-, rfl, rfl⟩ : sink = { site.sink with written := site.sink.written ++ [path] } ∧
          disk = grown.put target.place (.file data) ∧ answer = .ok target := by
        simpa using hwrite.symm.trans haccepted
      change (grown.put target.place (.file data)).file? place =
        (site.sink.lastAt [(path, data)] place).or (site.disk.file? place)
      rw [Sink.lastAt_singleton, ← hplace, ← hgrows.file? place, Disk.file?, Disk.file?,
        Disk.node?_put hne]
      by_cases hother : place = target.place
      · simp [hother]
      · simp [hother]
  upholds := fun _ => by
    have hkept := (Sink.write_keeps hroot site.disk path data).1
    rw [hwrite] at hkept
    exact hkept

end Filled

end Site

theorem Job.filled_run {α : Type} (job : Job α) {site : Site} (hroot : site.sink.root.Normal)
    (log : Option Path) : site.Filled log (job.writes site) (job.run site).2 := by
  induction job generalizing site with
  | done value => exact .of_same rfl rfl
  | read key next ih =>
      rcases hread : site.archive.read site.disk key with ⟨answer, archive⟩
      have hread' : site.Filled log [] { site with archive } := .of_same rfl rfl
      have hroot' : ({ site with archive } : Site).sink.root.Normal := hroot
      simp only [writes, run, hread]
      exact hread'.trans (ih answer hroot')
  | contains key next ih => exact ih _ hroot
  | write path data next ih =>
      rcases hwrite : site.sink.write site.disk path data with ⟨sink, disk, answer⟩
      have hfilled := Site.Filled.of_write hroot log path data hwrite
      have hroot' : ({ site with sink, disk } : Site).sink.root.Normal := hfilled.root ▸ hroot
      simp only [writes, run, hwrite]
      exact hfilled.trans (ih _ hroot')
  | print channel line next ih =>
      have hprinted : site.Filled log []
          { site with console := site.console.printLine channel line } := .of_same rfl rfl
      exact hprinted.trans (ih hroot)

theorem Deeds.filled {d : Dispatcher} {agenda : List (Entry × Mode)} {deeds : List Deed}
    (h : Deeds d log agenda site deeds last) (hroot : site.sink.root.Normal) :
    site.Filled log (deeds.flatMap Deed.writes) last := by
  induction h with
  | done hnoted => exact .of_noted hnoted
  | @next entry mode agenda deeds site noted last hnoted _ ih =>
      have hbefore := Site.Filled.of_noted hnoted
      have hroot' : noted.sink.root.Normal := hbefore.root ▸ hroot
      have hfilled := (d.dispatch entry mode).filled_run hroot' log
      have hroot'' : ((d.dispatch entry mode).run noted).2.sink.root.Normal := hfilled.root ▸ hroot'
      have hall := hbefore.trans (hfilled.trans (ih hroot''))
      rwa [List.nil_append] at hall

/-! ### What an archive needs -/

theorem Archive.uses_read (a : Archive) (disk : Disk) (key : String) (place : Path) :
    (a.read disk key).2.Uses place ↔ a.Uses place := by
  cases a with
  | grf store => exact Iff.rfl
  | folder files => exact Iff.rfl

theorem Job.uses_run {α : Type} (job : Job α) (site : Site) (place : Path) :
    (job.run site).2.archive.Uses place ↔ site.archive.Uses place := by
  induction job generalizing site with
  | done value => exact Iff.rfl
  | read key next ih =>
      rw [run, ih]
      exact site.archive.uses_read site.disk key place
  | contains key next ih => rw [run, ih]
  | write path data next ih => rw [run, ih]
  | print channel line next ih => rw [run, ih]

/-- A file that no write leads to stays in its folders. -/
theorem Disk.Holds.of_wrote {p : AbsolutePath} {data : Bytes} (h : site.disk.Holds p data)
    (hwrote : site.Wrote log writes last) (hlog : ∀ above, above <+: p.place → log ≠ some above)
    (hwrites : ∀ w ∈ writes, site.sink.place w.1 ≠ p.place) : last.disk.Holds p data where
  file := (hwrote.others p.place (hlog _ List.prefix_rfl) hwrites).trans h.file
  folders := fun above habove hshort =>
    hwrote.folders above (hlog above habove) (h.folders above habove hshort)

namespace Site

variable {again left : Site}

/-- The archives of two sites answer alike, and the sites have one output folder. -/
structure Alike (site again : Site) : Prop where
  archive : site.archive.Alike site.disk again.disk again.archive
  root : again.sink.root = site.sink.root

namespace Alike

theorem symm (h : site.Alike again) : again.Alike site := ⟨h.archive.symm, h.root.symm⟩

theorem place_eq (h : site.Alike again) (path : String) :
    again.sink.place path = site.sink.place path := by
  rw [Sink.place_eq_follow, Sink.place_eq_follow, h.root]

theorem read_right (h : site.Alike again) (key : String) :
    site.Alike { again with archive := (again.archive.read again.disk key).2 } :=
  ⟨h.archive.read_right again.disk key, h.root⟩

/-- Writes to places that the archive does not need leave its answers alone. -/
theorem wrote_right (h : site.Alike again) (hwrote : again.Wrote log writes left)
    (harchive : left.archive = again.archive) (hlog : ∀ noted ∈ log, ¬ site.archive.Uses noted)
    (hwrites : ∀ w ∈ writes, ¬ site.archive.Uses (site.sink.place w.1)) : site.Alike left where
  archive := by
    rw [harchive]
    refine h.archive.disk_right fun p data huses hholds => hholds.of_wrote hwrote ?_ ?_
    · intro above habove hnoted
      exact hlog above hnoted (((h.archive.uses_iff p.place).mpr huses).above habove)
    · intro w hw hplace
      rw [h.place_eq] at hplace
      exact hwrites w hw (hplace ▸ (h.archive.uses_iff p.place).mpr huses)
  root := hwrote.root.trans h.root

theorem wrote (h : site.Alike again) (hwrote : site.Wrote log writes last)
    (hwrote' : again.Wrote log later left) (harchive : last.archive = site.archive)
    (harchive' : left.archive = again.archive) (hlog : ∀ noted ∈ log, ¬ site.archive.Uses noted)
    (hwrites : ∀ w ∈ writes, ¬ site.archive.Uses (site.sink.place w.1))
    (hlater : ∀ w ∈ later, ¬ site.archive.Uses (site.sink.place w.1)) : last.Alike left := by
  have hright := h.wrote_right hwrote' harchive' hlog hlater
  refine (hright.symm.wrote_right hwrote harchive (fun noted hnoted huses => ?_)
    fun w hw huses => ?_).symm
  · exact hlog noted hnoted ((hright.archive.uses_iff noted).mpr huses)
  · rw [hright.place_eq] at huses
    exact hwrites w hw ((hright.archive.uses_iff _).mpr huses)

end Alike

end Site

/-- An access that is no write to a place of the archive leaves the archive's answers alone. -/
theorem Job.alike_advance {α : Type} (job : Job α) {site again : Site} (h : site.Alike again)
    (hroot : site.sink.root.Normal)
    (hwrites : ∀ w ∈ job.writes again, ¬ site.archive.Uses (site.sink.place w.1)) :
    site.Alike (job.advance again).2 := by
  cases job with
  | done value => exact h
  | read key next => exact h.read_right key
  | contains key next => exact h
  | write path data next =>
      rcases hwrite : again.sink.write again.disk path data with ⟨sink, disk, answer⟩
      simp only [Job.writes, hwrite, List.forall_mem_append] at hwrites
      simp only [Job.advance, hwrite]
      have hwrote := Site.Wrote.of_write (h.root ▸ hroot) none path data hwrite
      exact h.wrote_right hwrote rfl (by simp) hwrites.1
  | print channel line next => exact ⟨h.archive, h.root⟩

theorem Job.alike_run {α : Type} (job : Job α) {again : Site} (h : site.Alike again)
    (hroot : site.sink.root.Normal)
    (hwrites : ∀ w ∈ job.writes again, ¬ site.archive.Uses (site.sink.place w.1)) :
    site.Alike (job.run again).2 := by
  induction job, again using Job.advance_induction with
  | done value again => exact h
  | advance job again ih =>
      rw [← job.run_advance again]
      apply ih (job.alike_advance h hroot hwrites)
      intro w hw
      exact hwrites w (job.mem_writes_of_mem_advance again hw)

theorem Deeds.alike {d : Dispatcher} {agenda : List (Entry × Mode)} {deeds : List Deed}
    {again left : Site} (h : Deeds d log agenda again deeds left) (hsame : site.Alike again)
    (hroot : site.sink.root.Normal) (hlog : ∀ noted ∈ log, ¬ site.archive.Uses noted)
    (hwrites : ∀ w ∈ deeds.flatMap Deed.writes, ¬ site.archive.Uses (site.sink.place w.1)) :
    site.Alike left := by
  induction h with
  | done hnoted => exact hsame.wrote_right (.of_noted hnoted) hnoted.archive hlog (by simp)
  | next hnoted _ ih =>
      simp only [List.flatMap_cons, List.forall_mem_append] at hwrites
      have hbefore := hsame.wrote_right (.of_noted hnoted) hnoted.archive hlog (by simp)
      exact ih (Job.alike_run _ hbefore hroot hwrites.1) hwrites.2

/-! ### The second time -/

namespace Site

variable {again left : Site}

/-- Some writes were made once more: they have changed nothing but the data in files. -/
structure Refilled (log : Option Path) (writes : List (String × Bytes)) (again left : Site) :
    Prop where
  root : left.sink.root = again.sink.root
  node?_eq : ∀ place, log ≠ some place → left.disk.node? place =
    ((again.sink.lastAt writes place).map Node.file).or (again.disk.node? place)
  sameShape : again.disk.SameShape log left.disk

namespace Refilled

theorem of_same (hsink : last.sink = site.sink) (hdisk : last.disk = site.disk) :
    site.Refilled log [] last where
  root := by rw [hsink]
  node?_eq := fun place _ => by rw [hdisk, Sink.lastAt_nil, Option.map_none, Option.none_or]
  sameShape := hdisk ▸ .refl log _

theorem of_noted (h : site.Noted log last) : site.Refilled log [] last where
  root := by rw [h.sink]
  node?_eq := fun place hplace => by
    rw [h.node? hplace, Sink.lastAt_nil, Option.map_none, Option.none_or]
  sameShape := h.sameShape

theorem trans (h : site.Refilled log writes middle) (h' : middle.Refilled log later last) :
    site.Refilled log (writes ++ later) last where
  root := h'.root.trans h.root
  node?_eq := fun place hplace => by
    rw [h'.node?_eq place hplace, h.node?_eq place hplace, Sink.lastAt_congr h.root,
      Sink.lastAt_append, Option.map_or, Option.or_assoc]
  sameShape := h.sameShape.trans h'.sameShape

end Refilled

/-- A write that finds what it left has the same answer once more, and nothing but the data in its
file changes. -/
theorem Alike.write_again {path : String} {data : Bytes} {sink sink' : Sink} {disk disk' : Disk}
    {answer answer' : Except Sink.Fault AbsolutePath} (h : site.Alike again)
    (hroot : site.sink.root.Normal)
    (hwrite : site.sink.write site.disk path data = (sink, disk, answer))
    (hwrite' : again.sink.write again.disk path data = (sink', disk', answer'))
    (hup : disk.Upholds site.sink.root.place again.disk)
    (hwrites : ∀ w ∈ if answer.isOk then [(path, data)] else [],
      ¬ site.archive.Uses (site.sink.place w.1)) :
    answer' = answer ∧
      ({ site with sink, disk } : Site).Alike { again with sink := sink', disk := disk' } ∧
      ∀ log, again.Refilled log (if answer.isOk then [(path, data)] else [])
        { again with sink := sink', disk := disk' } := by
  have hroot' : again.sink.root.Normal := h.root ▸ hroot
  have hfirst := Wrote.of_write hroot none path data hwrite
  have hagain := Wrote.of_write hroot' none path data hwrite'
  have hwritten := Sink.write_again hroot h.root path data (by rwa [hwrite])
  rw [hwrite, hwrite'] at hwritten
  obtain ⟨hanswer, hnodes, hshape⟩ := hwritten
  obtain rfl := hanswer.symm
  refine ⟨rfl, h.wrote hfirst hagain rfl rfl (by simp) hwrites hwrites, fun log =>
    ⟨hagain.root, fun place _ => ?_, hshape log⟩⟩
  rw [hnodes place]
  cases hok : answer.isOk with
  | false => simp [Sink.lastAt_nil]
  | true =>
      rw [if_pos rfl, Sink.lastAt_singleton, h.place_eq]
      by_cases hplace : place = site.sink.place path <;> simp [hplace]

end Site

/-- A job that finds what it left, and an archive that answers alike, does the same again. -/
theorem Job.run_again {α : Type} (job : Job α) {site again : Site} (log : Option Path)
    (hroot : site.sink.root.Normal) (h : site.Alike again)
    (hup : (job.run site).2.disk.Upholds site.sink.root.place again.disk)
    (hwrites : ∀ w ∈ job.writes site, ¬ site.archive.Uses (site.sink.place w.1)) :
    (job.run again).1 = (job.run site).1 ∧ job.writes again = job.writes site ∧
      (job.run site).2.Alike (job.run again).2 ∧
      again.Refilled log (job.writes site) (job.run again).2 := by
  induction job generalizing site again with
  | done value => exact ⟨rfl, rfl, h, .of_same rfl rfl⟩
  | read key next ih =>
      have hanswer := h.archive.answer_read key
      have hboth := ((h.read_right key).symm.read_right key).symm
      have huses := fun place => site.archive.uses_read site.disk key place
      rcases hread : site.archive.read site.disk key with ⟨answer, archive⟩
      rcases hread' : again.archive.read again.disk key with ⟨answer', archive'⟩
      simp only [hread, hread'] at hanswer hboth huses
      obtain rfl := hanswer.symm
      simp only [run, writes, hread, hread'] at hup hwrites ⊢
      have hroot' : ({ site with archive } : Site).sink.root.Normal := hroot
      have hboth' : ({ site with archive } : Site).Alike { again with archive := archive' } := hboth
      obtain ⟨hvalue, hsame, hend, hleft⟩ := ih answer hroot' hboth' hup fun w hw huse =>
        hwrites w hw ((huses _).mp huse)
      exact ⟨hvalue, hsame, hend, hleft.root, hleft.node?_eq, hleft.sameShape⟩
  | contains key next ih =>
      simp only [run, writes, h.archive.contains_eq key] at hup hwrites ⊢
      exact ih _ hroot h hup hwrites
  | write path data next ih =>
      rcases hwrite : site.sink.write site.disk path data with ⟨sink, disk, answer⟩
      rcases hwrite' : again.sink.write again.disk path data with ⟨sink', disk', answer'⟩
      simp only [run, writes, hwrite, hwrite', List.forall_mem_append] at hup hwrites ⊢
      have hfirst := Site.Wrote.of_write hroot none path data hwrite
      have hroot' : ({ site with sink, disk } : Site).sink.root.Normal := hfirst.root ▸ hroot
      -- what the first write has left is still there behind the rest of the job
      have hrest := (next (answer.map fun _ => ())).filled_run hroot' none
      have hleft := hrest.upholds (by simp)
      rw [hfirst.root] at hleft
      obtain ⟨hanswer, hboth, hnow⟩ :=
        h.write_again hroot hwrite hwrite' (hleft.trans hup) hwrites.1
      obtain rfl := hanswer.symm
      have hup' := hup.trans ((hnow none).sameShape.upholds site.sink.root.place (by simp))
      rw [← hfirst.root] at hup'
      obtain ⟨hvalue, hsame, hend, hlater⟩ := ih (answer.map fun _ => ()) hroot' hboth hup' (by
        intro w hw
        rw [hfirst.place_eq]
        exact hwrites.2 w hw)
      exact ⟨hvalue, by rw [hsame], hend, (hnow log).trans hlater⟩
  | print channel line next ih =>
      have hboth : ({ site with console := site.console.printLine channel line } : Site).Alike
          { again with console := again.console.printLine channel line } := ⟨h.archive, h.root⟩
      obtain ⟨hvalue, hsame, hend, hleft⟩ := ih (by exact hroot) hboth hup hwrites
      exact ⟨hvalue, hsame, hend, hleft.root, hleft.node?_eq, hleft.sameShape⟩

/-- Entries that are dispatched once more get the same outcomes. -/
theorem Deeds.again {d : Dispatcher} {agenda : List (Entry × Mode)} {deeds others : List Deed}
    {again left : Site} (h : Deeds d log agenda site deeds last)
    (h' : Deeds d log agenda again others left) (hroot : site.sink.root.Normal)
    (hsame : site.Alike again) (hup : last.disk.Upholds site.sink.root.place again.disk)
    (hlog : ∀ noted ∈ log, site.sink.root.place.Apart noted ∧ ¬ site.archive.Uses noted)
    (hwrites : ∀ w ∈ deeds.flatMap Deed.writes, ¬ site.archive.Uses (site.sink.place w.1)) :
    others = deeds ∧ again.Refilled log (deeds.flatMap Deed.writes) left := by
  induction h generalizing again others with
  | done _ =>
      cases h' with
      | done hnoted => exact ⟨rfl, .of_noted hnoted⟩
  | @next entry mode agenda deeds site noted last hnoted hrest ih =>
      cases h' with
      | @next _ _ _ others _ noted' _ hnoted' hrest' =>
          simp only [List.flatMap_cons, List.forall_mem_append] at hwrites
          have hbefore := Site.Wrote.of_noted hnoted
          have hapart := fun noted hlogged => (hlog noted hlogged).1
          have hboth : noted.Alike noted' :=
            hsame.wrote hbefore (.of_noted hnoted') hnoted.archive hnoted'.archive
              (fun noted hlogged => (hlog noted hlogged).2) (by simp) (by simp)
          have hroot' : noted.sink.root.Normal := hbefore.root ▸ hroot
          have hwritten := (d.dispatch entry mode).wrote_run hroot' log
          have hroot'' : ((d.dispatch entry mode).run noted).2.sink.root.Normal :=
            hwritten.root ▸ hroot'
          have hrootEq := hwritten.root.trans hbefore.root
          -- what the entry has left the first time is still there at the end and now
          have hkept := (hrest.filled hroot'').upholds (by rwa [hrootEq])
          rw [hrootEq] at hkept
          have hnoting := hnoted'.sameShape.upholds site.sink.root.place
            fun _ => Site.log_ne_of_apart hapart
          have hfirst := (d.dispatch entry mode).run_again log hroot' hboth
            (by rw [hbefore.root]; exact (hkept.trans hup).trans hnoting)
            (by rw [hnoted.archive]; simpa only [hbefore.place_eq] using hwrites.1)
          obtain ⟨hvalue, hsameWrites, hend, hrefilled⟩ := hfirst
          have hleft := hrefilled.sameShape.upholds site.sink.root.place
            fun _ => Site.log_ne_of_apart hapart
          have huses := fun place =>
            ((d.dispatch entry mode).uses_run noted place).trans
              (iff_of_eq (by rw [hnoted.archive]))
          obtain ⟨rfl, hlater⟩ := ih hrest' hroot'' hend
            (by rw [hrootEq]; exact (hup.trans hnoting).trans hleft)
            (by simpa only [hrootEq, huses] using hlog)
            (by simpa only [hwritten.place_eq, hbefore.place_eq, huses] using hwrites.2)
          refine ⟨by rw [hvalue, hsameWrites], ?_⟩
          have hall := (Site.Refilled.of_noted hnoted').trans (hrefilled.trans hlater)
          rwa [List.nil_append] at hall

/-! ### Runs -/

namespace Exporter

variable {e : Exporter} {working : AbsolutePath} {paths : List String} {limit : Int}

end Exporter

end ArchiveExport
