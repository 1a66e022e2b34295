import ArchiveExport.Text.Basic

/-!
# Lines

A line ends with a line feed, a carriage return or both in this order.
-/

namespace ArchiveExport.Text

/-- The characters with a line feed for each end of a line. -/
def unifyLines : List Char → List Char
  | [] => []
  | '\r' :: '\n' :: rest => '\n' :: unifyLines rest
  | '\r' :: rest => '\n' :: unifyLines rest
  | c :: rest => c :: unifyLines rest

/-- The lines of characters, and what stands behind the last end of a line. -/
def splitLines (cs : List Char) : List String × String :=
  let pieces := (splitOn '\n' (unifyLines cs)).map String.ofList
  (pieces.dropLast, (pieces.getLast?).getD "")

end ArchiveExport.Text
