/-!
# Pieces of text

Splitting at a separator, joining, replacing single characters and cutting leading characters.
The functions work on lists of characters; the ones on `String` wrap them.
-/

namespace ArchiveExport.Text

/-- The pieces between the separators, one more than there are separators. -/
def splitOn (sep : Char) : List Char → List (List Char)
  | [] => [[]]
  | c :: rest =>
    if c = sep then
      [] :: splitOn sep rest
    else
      match splitOn sep rest with
      | [] => [[c]]
      | piece :: pieces => (c :: piece) :: pieces

/-- The pieces of a text between the separators. -/
def split (sep : Char) (text : String) : List String :=
  (splitOn sep text.toList).map String.ofList

/-- The text with one character in place of another. -/
def replace (old new : Char) (text : String) : String :=
  String.ofList <| text.toList.map fun c => if c = old then new else c

/-- The text without the copies of a character it starts with. -/
def dropLeading (c : Char) (text : String) : String :=
  String.ofList <| text.toList.dropWhile (· = c)

/-- The list without the copies of a character it ends with. -/
def dropTrailing (c : Char) (text : List Char) : List Char :=
  (text.reverse.dropWhile (· = c)).reverse

/-- The pieces with a separator between each two. -/
def join (sep : String) (pieces : List String) : String :=
  sep.intercalate pieces

/-- `text` followed by blanks up to `width` characters. -/
def padRight (width : Nat) (text : String) : String :=
  text ++ String.ofList (List.replicate (width - text.length) ' ')

/-- Blanks up to `width` characters followed by `text`. -/
def padLeft (width : Nat) (text : String) : String :=
  String.ofList (List.replicate (width - text.length) ' ') ++ text

/-- Whether a text starts with another. -/
def startsWith (start text : String) : Bool :=
  start.toList.isPrefixOf text.toList

/-- Whether a text ends with another. -/
def endsWith (ending text : String) : Bool :=
  ending.toList.isSuffixOf text.toList

/-- Whether a list of characters occurs inside another. -/
def occursIn (part : List Char) : List Char → Bool
  | [] => part.isEmpty
  | c :: rest => part.isPrefixOf (c :: rest) || occursIn part rest

/-- Whether a text occurs inside another. -/
def contains (part text : String) : Bool :=
  occursIn part.toList text.toList

/-- Splitting always leaves a piece. -/
theorem splitOn_ne_nil (sep : Char) (text : List Char) : splitOn sep text ≠ [] := by
  cases text with
  | nil => simp [splitOn]
  | cons c rest =>
    simp only [splitOn]
    split
    · simp
    · split <;> simp

/-- No piece holds the separator. -/
theorem not_mem_of_mem_splitOn {sep : Char} {text piece : List Char}
    (h : piece ∈ splitOn sep text) : sep ∉ piece := by
  induction text generalizing piece with
  | nil =>
    simp only [splitOn, List.mem_singleton] at h
    simp [h]
  | cons c rest ih =>
    simp only [splitOn] at h
    split at h
    · rcases List.mem_cons.1 h with rfl | h
      · simp
      · exact ih h
    · next hc =>
      split at h
      · simp only [List.mem_singleton] at h
        subst h
        simpa using fun hs => hc hs.symm
      · next first others hs =>
        rcases List.mem_cons.1 h with rfl | h
        · have := @ih first (by simp [hs])
          simp only [List.mem_cons, not_or]
          exact ⟨fun hs => hc hs.symm, this⟩
        · exact ih (by simp [hs, h])

end ArchiveExport.Text
