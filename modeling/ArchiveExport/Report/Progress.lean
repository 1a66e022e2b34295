import ArchiveExport.Console
import ArchiveExport.Number.Binary64

/-!
# Progress bars

A bar of thirty cells with the part that is done as a percentage, as a fraction and by the name of
the current entry. Each bar is drawn over the one before it; the last one ends its line.
-/

namespace ArchiveExport.ProgressBar

/-- The number of cells. -/
def cells : Nat := 30

/-- The longest name that is shown in full. -/
def maxName : Nat := 40

/-- A name, or an ellipsis and the end of a longer one. -/
def shortName (name : String) : String :=
  if maxName < name.length then
    "..." ++ String.ofList (name.toList.drop (name.length - (maxName - 3)))
  else name

/-- The quotient of two integers, the second of them positive. -/
def quotient (num : Int) (den : Int) : Binary64 :=
  .ofQuotient (decide (num < 0)) num.natAbs den.natAbs

/-- The number of cells that are filled. -/
def filled (current total : Int) : Int :=
  if total ≤ 0 then 0 else ((quotient (cells * current) total).truncate?).getD 0

/-- The part that is done in percent, with one digit after the point. -/
def percentage (current total : Int) : String :=
  if total ≤ 0 then "0.0" else ((quotient current total).mul (.ofInt 100)).fixedOne

/-- The cells of a bar. -/
def bar (current total : Int) : String :=
  let n := filled current total
  String.ofList (List.replicate n.toNat '█' ++ List.replicate (cells - n).toNat '░')

/-- A bar with its numbers and its name, drawn over the line that it is on. -/
def text (current total : Int) (name : String) : String :=
  s!"\r[{bar current total}] {Text.padLeft 5 (percentage current total)}% | " ++
    s!"{current}/{total} | {shortName name}"

/-- The console with a bar; the line ends once all is done. -/
def draw (console : Console) (current total : Int) (name : String) : Console :=
  let console := console.print .output (text current total name)
  if total ≤ current then console.print .output "\n" else console

end ArchiveExport.ProgressBar
