import ArchiveExport.Disk.Basic
import ArchiveExport.Text.Quoted

/-!
# Access by text

Programs name places by texts, relative to a working folder or absolute. A text is followed name
by name: every place on the way has to be a folder, and no name may be longer than 255 octets. An
access that fails leaves the disk as it was.
-/

namespace ArchiveExport

/-- Why the disk refuses an access. -/
inductive Refusal where
  | noEntry
  | exists
  | notFolder
  | isFolder
  | nameTooLong
  deriving DecidableEq

namespace Refusal

/-- The refusal's number. -/
def number : Refusal → Nat
  | .noEntry => 2
  | .exists => 17
  | .notFolder => 20
  | .isFolder => 21
  | .nameTooLong => 36

/-- The refusal in words. -/
def words : Refusal → String
  | .noEntry => "No such file or directory"
  | .exists => "File exists"
  | .notFolder => "Not a directory"
  | .isFolder => "Is a directory"
  | .nameTooLong => "File name too long"

end Refusal

namespace Disk

/-- The most octets of a name. -/
def maxName : Nat := 255

/-- The most octets of a text. -/
def maxText : Nat := 4095

end Disk

/-- The text of a path is not too long to be used. -/
def AbsolutePath.Fits (p : AbsolutePath) : Prop := p.text.utf8ByteSize ≤ Disk.maxText

instance (p : AbsolutePath) : Decidable p.Fits :=
  inferInstanceAs (Decidable (_ ≤ _))

namespace Disk

/-- Why an access by a text fails. -/
inductive Fault where
  | refused (refusal : Refusal) (text : String)
  /-- No text with a NUL names a place. -/
  | nulInText
  deriving DecidableEq

/-- The fault in words. -/
def Fault.message : Fault → String
  | .refused refusal text =>
    s!"[Errno {refusal.number}] {refusal.words}: {Text.quote text}"
  | .nulInText => "embedded null byte"

/-- Follow names from a place, looking at every place on the way. -/
def walk (d : Disk) : Path → List String → Except Refusal Path
  | place, [] => .ok place
  | place, name :: names =>
    match d.node? place with
    | none => .error .noEntry
    | some (.file _) => .error .notFolder
    | some .folder =>
      if maxName < name.utf8ByteSize then .error .nameTooLong
      else walk d (Path.step place name) names

/-- The place that a text names, whether or not there is something. -/
def locate (d : Disk) (working : Path) (text : String) : Except Fault Path :=
  if text.toList.contains (Char.ofNat 0) then .error .nulInText
  else if text = "" then .error (.refused .noEntry text)
  else if maxText < text.utf8ByteSize then .error (.refused .nameTooLong text)
  else
    (d.walk (if Path.isAbsolute text then [] else working) (Text.split '/' text)).mapError
      (.refused · text)

/-- What is at the place that a text names. -/
def look (d : Disk) (working : Path) (text : String) : Except Fault Node := do
  match d.node? (← d.locate working text) with
  | some node => return node
  | none => throw (.refused .noEntry text)

/-- Whether a text names a file. -/
def isFile (d : Disk) (working : Path) (text : String) : Bool :=
  match d.look working text with
  | .ok (.file _) => true
  | _ => false

/-- Whether a text names a folder. -/
def isFolder (d : Disk) (working : Path) (text : String) : Bool :=
  match d.look working text with
  | .ok .folder => true
  | _ => false

/-- Whether a text names anything. -/
def has (d : Disk) (working : Path) (text : String) : Bool :=
  (d.look working text).toOption.isSome

/-- The data of the file that a text names. -/
def read (d : Disk) (working : Path) (text : String) : Except Fault Bytes := do
  match ← d.look working text with
  | .file data => return data
  | .folder => throw (.refused .isFolder text)

/-- The text without the slashes it ends with. -/
def withoutSlashes (text : String) : String :=
  String.ofList (Text.dropTrailing '/' text.toList)

/-- Write a file, replacing the one at its place. -/
def write (d : Disk) (working : Path) (text : String) (data : Bytes) : Except Fault Disk := do
  if text ≠ "/" ∧ Text.endsWith "/" text then
    let _ ← (d.locate working (withoutSlashes text)).mapError fun
      | .refused refusal _ => .refused refusal text
      | .nulInText => .nulInText
    throw (.refused .isFolder text)
  let place ← d.locate working text
  if d.hasFolder place then
    throw (.refused .isFolder text)
  return d.put place (.file data)

/-- Make sure that a text names a file: the one at its place, or a new one without data. -/
def touch (d : Disk) (working : Path) (text : String) : Except Fault (Disk × Path) := do
  let data := ((d.read working text).toOption).getD []
  let d ← d.write working text data
  return (d, ← d.locate working text)

/-- The disk with octets added to the file at a place. -/
def append (d : Disk) (place : Path) (data : Bytes) : Disk :=
  match d.file? place with
  | some before => d.put place (.file (before ++ data))
  | none => d

/-- Make a folder at a place where there is nothing. -/
def makeFolder (d : Disk) (working : Path) (text : String) : Except Fault Disk := do
  let place ← (d.locate working (if text = "/" then text else withoutSlashes text)).mapError fun
    | .refused refusal _ => .refused refusal text
    | .nulInText => .nulInText
  if (d.node? place).isSome then
    throw (.refused .exists text)
  return d.put place .folder

/-- Make a folder unless there is one. -/
def allowFolder (d : Disk) (working : Path) (text : String) : Disk × Except Fault Unit :=
  match d.makeFolder working text with
  | .ok d => (d, .ok ())
  | .error .nulInText => (d, .error .nulInText)
  | .error fault => if d.isFolder working text then (d, .ok ()) else (d, .error fault)

/-- Make a folder and those above it that are missing. The folders that were made before an access
fails stay. The text is cut at its last slash at most `fuel` times. -/
def makeFoldersFrom (working : Path) : Nat → Disk → String → Disk × Except Fault Unit
  | 0, d, text => d.allowFolder working text
  | fuel + 1, d, text =>
    let (head, tail) :=
      if Path.base text = "" then (Path.folder (Path.folder text), Path.base (Path.folder text))
      else (Path.folder text, Path.base text)
    if head ≠ "" ∧ tail ≠ "" ∧ !d.has working head then
      match makeFoldersFrom working fuel d head with
      | (d, .ok ()) | (d, .error (.refused .exists _)) =>
        if tail = "." then (d, .ok ()) else d.allowFolder working text
      | (d, .error fault) => (d, .error fault)
    else
      d.allowFolder working text

/-- Make the folder that a text names and those above it that are missing. -/
def makeFolders (d : Disk) (working : Path) (text : String) : Disk × Except Fault Unit :=
  makeFoldersFrom working text.length d text

/-- Remove the file that a text names. -/
def removeFile (d : Disk) (working : Path) (text : String) : Except Fault Disk := do
  match ← d.look working text with
  | .file _ => return d.remove (← d.locate working text)
  | .folder => throw (.refused .isFolder text)

end Disk

end ArchiveExport
