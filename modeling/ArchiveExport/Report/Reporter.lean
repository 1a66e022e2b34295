import ArchiveExport.Disk.Access
import ArchiveExport.Report.Message
import ArchiveExport.Report.Progress

/-!
# Reporters

A reporter is told messages and keeps them in order. It may print them too, each followed in a log
file by its line without styles, and it may draw the progress of patterns.
-/

namespace ArchiveExport

/-- How a reporter prints. -/
structure Printer where
  /-- The place of the log file. -/
  log : Option Path := none
  showsProgress : Bool := false

/-- The messages told so far, and how they are printed. -/
structure Reporter where
  messages : List Message := []
  printer : Option Printer := none

namespace Printer

/-- A printer on a console, with colours and a log file as asked for. The log file is made if
there is none. -/
def start (colors progress : Bool) (log : Option String) (working : Path) (disk : Disk)
    (console : Console) : Disk × Console × Except Disk.Fault Printer :=
  let console := if colors then console else console.withoutColor
  match log with
  | none => (disk, console, .ok ⟨none, progress⟩)
  | some text =>
    match disk.touch working text with
    | .error fault => (disk, console, .error fault)
    | .ok (disk, place) => (disk, console, .ok ⟨some place, progress⟩)

/-- The printer once its log file is closed. -/
def close (p : Printer) : Printer :=
  { p with log := none }

/-- Print a message, and add it to the log. -/
def print (p : Printer) (disk : Disk) (console : Console) (m : Message) : Disk × Console :=
  let disk :=
    match p.log with
    | some place => disk.append place (Bytes.ofString (m.line ++ "\n"))
    | none => disk
  (disk, console.printStyled m.level.channel m.level.styles m.line)

end Printer

namespace Reporter

/-- Tell a reporter a message. -/
def tell (r : Reporter) (disk : Disk) (console : Console) (m : Message) :
    Reporter × Disk × Console :=
  let (disk, console) :=
    match r.printer with
    | some p => p.print disk console m
    | none => (disk, console)
  ({ r with messages := r.messages ++ [m] }, disk, console)

/-- Show a reporter's console how far a pattern is. -/
def showProgress (r : Reporter) (console : Console) (current total : Int) (name : String) :
    Console :=
  match r.printer with
  | some p => if p.showsProgress then ProgressBar.draw console current total name else console
  | none => console

/-- The number of messages of a level. -/
def count (r : Reporter) (level : Level) : Nat :=
  r.messages.countP (·.level = level)

end Reporter

end ArchiveExport
