import ArchiveExport.Text.LowercaseTable

/-!
# Lower case

A text is lowered character by character. Most characters have one character as their lower case;
the capital I with a dot becomes two, and the capital sigma takes its final form after a letter
with a case unless such a letter follows.
-/

namespace ArchiveExport.Text

/-- Whether a code point lies in one of the runs. -/
def inRanges (ranges : List (Nat × Nat)) (n : Nat) : Bool :=
  ranges.any fun r => r.1 ≤ n && n ≤ r.2

/-- Whether a run gives the lower case of a code point. -/
def CaseRun.covers (run : CaseRun) (n : Nat) : Bool :=
  run.first ≤ n && n ≤ run.last && (n - run.first) % run.stride = 0

/-- The lower case of a character other than the capital sigma and the dotted capital I. -/
def lowerChar (c : Char) : Char :=
  let n := c.toNat
  if n < 0x80 then
    if 0x41 ≤ n ∧ n ≤ 0x5A then Char.ofNat (n + 32) else c
  else
    match lowercaseRuns.find? (·.covers n) with
    | some run => Char.ofNat (n + run.shift).toNat
    | none => c

/-- Whether the nearest character that is not passed over is a letter with a case. -/
def meetsCased (cs : List Char) : Bool :=
  match cs.dropWhile fun c => inRanges caseIgnorableRanges c.toNat with
  | [] => false
  | c :: _ => inRanges casedRanges c.toNat

/-- Lower the characters of `rest`, where `before` holds those already passed, nearest first. -/
def lowerFrom : List Char → List Char → List Char
  | _, [] => []
  | before, c :: rest =>
    let lowered :=
      if c.toNat = 0x3A3 then
        if meetsCased before && !meetsCased rest then ['ς'] else ['σ']
      else if c.toNat = 0x130 then
        ['i', Char.ofNat 0x307]
      else
        [lowerChar c]
    lowered ++ lowerFrom (c :: before) rest

/-- The lower case of a text. -/
def lower (text : String) : String :=
  String.ofList (lowerFrom [] text.toList)

end ArchiveExport.Text
