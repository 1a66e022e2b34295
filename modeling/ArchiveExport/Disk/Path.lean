import ArchiveExport.Text.Basic

/-!
# Paths

A place on the disk is the list of names that leads to it from the top. In texts the names are
separated by slashes; an absolute text starts with one, or with exactly two, which are kept apart
in texts but lead to the same place.
-/

namespace ArchiveExport

/-- The names that lead to a place from the top of the disk. -/
abbrev Path : Type := List String

namespace Path

/-- Follow one name: nothing and a single dot stay, two dots go up, other names go down. -/
def step (place : Path) (name : String) : Path :=
  if name = "" ∨ name = "." then place
  else if name = ".." then place.dropLast
  else place ++ [name]

/-- Follow the names of a text from a place, without looking at the disk. -/
def follow (place : Path) (names : List String) : Path :=
  names.foldl step place

/-- Whether a text is absolute. -/
def isAbsolute (text : String) : Bool :=
  Text.startsWith "/" text

/-- A text behind a folder's text; an absolute text stands alone. -/
def join (folder text : String) : String :=
  if isAbsolute text then text
  else if folder = "" ∨ Text.endsWith "/" folder then folder ++ text
  else folder ++ "/" ++ text

/-- What a text has behind its last slash. -/
def base (text : String) : String :=
  String.ofList (text.toList.reverse.takeWhile (· ≠ '/')).reverse

/-- What a text has in front of its last slash, without the slashes that ends with, unless there
is nothing else. -/
def folder (text : String) : String :=
  let head := (text.toList.reverse.dropWhile (· ≠ '/')).reverse
  if head.all (· = '/') then String.ofList head
  else String.ofList (Text.dropTrailing '/' head)

end Path

/-- A place by its normalized absolute text. -/
structure AbsolutePath where
  /-- The slashes in front: one, or two. -/
  lead : String
  place : Path
  deriving DecidableEq

namespace AbsolutePath

/-- The text of a place. -/
def text (p : AbsolutePath) : String :=
  p.lead ++ Text.join "/" p.place

/-- The slashes that count in front of an absolute text. -/
def leadOf (text : String) : String :=
  if Text.startsWith "//" text && !Text.startsWith "///" text then "//" else "/"

/-- The place that a text means in a working folder, dots followed without looking. -/
def ofText (working : AbsolutePath) (text : String) : AbsolutePath :=
  if Path.isAbsolute text then ⟨leadOf text, Path.follow [] (Text.split '/' text)⟩
  else ⟨working.lead, Path.follow working.place (Text.split '/' text)⟩

/-- The path of some names below a folder. -/
def below (root : AbsolutePath) (names : Path) : AbsolutePath := ⟨root.lead, root.place ++ names⟩

end AbsolutePath

end ArchiveExport
