import Std.Time
import ArchiveExport.Command.Launcher
import ArchiveExport.Command.Reach

/-!
# The program

The program takes what its arguments and settings name from the machine's disk into memory, lets
the launcher work on that, then prints what was said and writes what has changed.

## What is left out

* Image files and encodings beside those of the plain codecs.
* The end of the stack, but for brackets in settings, where a fixed number may be nested: a folder
  is gone through however deep it is.
* Names on the disk that are no UTF-8, and halves of surrogate pairs in paths and outputs: only
  values of settings hold such halves.
* Rights and links on the disk, and what other programs do to files in the meantime, such as writing
  over an archive that is open.
-/

namespace ArchiveExport.Program

open Command

/-- The environment of the process. -/
def environment : IO Environment := do
  let windows := (← IO.getEnv "OS") = some "Windows_NT"
  return {
    platform := if windows then .windows else .other
    home := ← IO.getEnv "HOME"
    configHome := ← IO.getEnv "XDG_CONFIG_HOME"
    appData := ← IO.getEnv "APPDATA" }

/-- The machine as the process finds it. -/
def machine : IO Machine := do
  let working := AbsolutePath.ofText ⟨"/", []⟩ (← IO.currentDir).toString
  let seconds := (← Std.Time.Timestamp.now).toSecondsSinceUnixEpoch.toInt
  return {
    environment := ← environment
    working
    now := ⟨seconds.toNat⟩
    home := (← IO.appDir).toString
    codecs := .plain }

/-- Take what is at a path, and all that is below it. Where there is nothing that can be read,
the disk stays as it is. -/
partial def take (disk : Disk) (text : String) (place : Path) : IO Disk := do
  try
    let path ← IO.FS.realPath text
    if ← path.isDir then
      (← path.readDir).foldlM
        (fun disk entry =>
          take disk (Path.join text entry.fileName) (place ++ [entry.fileName]))
        (disk.ensureFolder place)
    else
      return disk.putFile place (← IO.FS.readBinFile text).toList
  catch _ =>
    return disk

/-- Take what some texts name. -/
def takeAll (working : AbsolutePath) (texts : List String) (disk : Disk) : IO Disk :=
  (texts.filter (· ≠ "")).foldlM
    (fun disk text =>
      let path := AbsolutePath.ofText working text
      take disk path.text path.place)
    disk

/-- The disk with everything that the arguments can reach. -/
def reached (machine : Machine) (arguments : List String) : IO Disk := do
  let start := Disk.empty.ensureFolder machine.working.place
  let disk ← takeAll machine.working (firstReach machine.environment arguments) start
  match ofArguments? arguments with
  | none => return disk
  | some command =>
    let disk ← takeAll machine.working (secondReach machine disk command) disk
    takeAll machine.working (thirdReach machine disk command) disk

/-- Write what is on one disk but not on the other. -/
def writeChanges (before after : Disk) : IO Unit :=
  after.nodes.entries.forM fun (place, node) => do
    if before.node? place ≠ some node then
      let text := (AbsolutePath.mk "/" place).text
      match node with
      | .folder => IO.FS.createDirAll text
      | .file data => IO.FS.writeBinFile text (ByteArray.mk data.toArray)

/-- Run the program. -/
def run (arguments : List String) : IO UInt32 := do
  let machine ← machine
  let disk ← reached machine arguments
  let (result, workspace) := (Launcher.launch arguments).start machine { disk }
  writeChanges disk workspace.disk
  IO.print workspace.console.output
  IO.eprint workspace.console.error
  match result with
  | .ok code => return code.code.toUInt32
  | .error fault =>
    IO.eprintln (Console.traceOf fault.message)
    return 1

end ArchiveExport.Program

/-- The program. -/
def main (arguments : List String) : IO UInt32 :=
  ArchiveExport.Program.run arguments
