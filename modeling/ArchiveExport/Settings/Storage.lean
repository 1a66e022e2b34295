import ArchiveExport.Disk.Access
import ArchiveExport.Json.Reader
import ArchiveExport.Settings.Basic
import ArchiveExport.Text.Charset
import ArchiveExport.Text.Lines

/-!
# Settings files

Settings are kept as a JSON object. Loading takes over the values under names that have a
meaning; a file that holds no object changes nothing. Loading and saving break off where the stack
is too small for the brackets in a value, and where a text or a number cannot be read or written.
-/

namespace ArchiveExport.Settings

open Text (Wide)

/-- What is said while settings are loaded or saved. -/
inductive Notice where
  | invalid (path : String) (fault : Json.Fault)
  | unreadable (fault : Disk.Fault)
  | notObject (path : String)
  | unknownName (name : String)
  | rejected (name : String) (misuse : Setting.Misuse)
  | unwritable (fault : Disk.Fault)
  deriving DecidableEq

/-- What is said of a name that has no meaning, in front of the name. -/
def unknownNameText : String := "[WARN] Unknown config key ignored: "

/-- The notice in words. -/
def Notice.message : Notice → String
  | .invalid path fault => s!"[ERROR] Invalid config file {path}: {fault.message}"
  | .unreadable fault => s!"[ERROR] Failed to load config: {fault.message}"
  | .notObject path => s!"[ERROR] Invalid config file {path}: expected an object"
  | .unknownName name => unknownNameText ++ name
  | .rejected name misuse =>
    s!"[WARN] Invalid config value for {name}, using default: {misuse.message}"
  | .unwritable fault => s!"[ERROR] Failed to save config: {fault.message}"

/-- Why loading breaks off. -/
inductive LoadFault where
  /-- The file is no text. -/
  | charset (fault : Text.Charset.Fault)
  /-- A numeral is too long, or brackets are nested too deep. -/
  | json (fault : Json.Fault)
  /-- The name of a mode is given by brackets that are nested too deep to be shown. -/
  | shown (misuse : Setting.Misuse)
  /-- A name that is to be printed has a half of a pair, which no output takes. -/
  | printed (name : Wide)
  deriving DecidableEq

/-- The fault of an output that is to take a text with halves of pairs: it tells the first of them,
or where the first ones stand that follow each other. -/
def surrogateMessage (points : List Text.Point) : String :=
  let halves := points.dropWhile (·.char?.isSome)
  let first := points.length - halves.length
  let count := (halves.takeWhile (·.char?.isNone)).length
  let place :=
    match halves with
    | point :: _ =>
      if count ≤ 1 then
        let escape := String.ofList (Text.escapeCode point.code)
        s!"character '{escape}' in position {first}"
      else s!"characters in position {first}-{first + count - 1}"
    | [] => ""
  s!"'utf-8' codec can't encode {place}: surrogates not allowed"

/-- The fault in words. -/
def LoadFault.message : LoadFault → String
  | .charset fault => fault.message
  | .json fault => fault.message
  | .shown misuse => misuse.message
  | .printed name => surrogateMessage ((unknownNameText : Wide).points ++ name.points)

/-- Take over one member of a settings file. -/
def takeMember (s : Settings) (stack : Stack) (name : Wide) (value : Json Wide) :
    Except LoadFault (Settings × List Notice) :=
  match name.toString? with
  | none => .error (.printed name)
  | some name =>
    if !s.values.contains name then .ok (s, [.unknownName name])
    else if name = "default_modes" then
      match s.setDefaultModes stack value with
      | .ok s => .ok (s, [])
      | .error .tooDeep => .error (.shown .tooDeep)
      | .error misuse => .ok (s, [.rejected name misuse])
    else .ok ({ s with values := s.values.insert name value }, [])

/-- Take over the members of a settings file, one after the other. Where this breaks off, those
before stay taken over. -/
def takeMembers (s : Settings) (stack : Stack) :
    List (Wide × Json Wide) → Settings × List Notice × Except LoadFault Unit
  | [] => (s, [], .ok ())
  | (name, value) :: members =>
    match s.takeMember stack name value with
    | .error fault => (s, [], .error fault)
    | .ok (s, notices) =>
      let (s, more, result) := takeMembers s stack members
      (s, notices ++ more, result)

/-- Take over what the text of a settings file says. -/
def takeText (s : Settings) (stack : Stack) (text : List Char) :
    Settings × List Notice × Except LoadFault Bool :=
  match Json.readWithin stack.reading (Text.unifyLines text) with
  | .ok (.object members) =>
    match s.takeMembers stack members with
    | (s, notices, .ok ()) => ({ s with modified := false }, notices, .ok true)
    | (s, notices, .error fault) => (s, notices, .error fault)
  | .ok _ => (s, [.notObject s.path], .ok false)
  | .error (.syntactic cause line column index) =>
    (s, [.invalid s.path (.syntactic cause line column index)], .ok false)
  | .error fault => (s, [], .error (.json fault))

/-- Load the settings, and tell whether that was done. -/
def load (s : Settings) (stack : Stack) (disk : Disk) (working : Path) :
    Settings × List Notice × Except LoadFault Bool :=
  if !disk.isFile working s.path then (s, [], .ok false)
  else
    match disk.read working s.path with
    | .error fault => (s, [.unreadable fault], .ok false)
    | .ok bs =>
      match Text.Charset.decodeUtf8 bs with
      | .error fault => (s, [], .error (.charset fault))
      | .ok text => s.takeText stack text

/-- What is written into a settings file. -/
def written (s : Settings) (stack : Stack) : Json.Written :=
  s.document.stream ⟨some 4, true⟩ stack.writing 0 []

/-- Make the folder of the settings and write them there, as far as they can be written. -/
def write (s : Settings) (stack : Stack) (disk : Disk) (working : Path) :
    Disk × Except Disk.Fault Unit :=
  let folder := Path.folder s.path
  let (disk, made) := if folder = "" then (disk, .ok ()) else disk.makeFolders working folder
  match made with
  | .error fault => (disk, .error fault)
  | .ok () =>
    match disk.write working s.path (Text.Utf8.encode (s.written stack).text) with
    | .ok disk => (disk, .ok ())
    | .error fault => (disk, .error fault)

/-- Why saving breaks off: the path is none that a disk could have, or a value cannot be written. -/
inductive SaveFault where
  | path (fault : Disk.Fault)
  | value (fault : Json.WriteFault)
  deriving DecidableEq

/-- The fault in words. -/
def SaveFault.message : SaveFault → String
  | .path fault => fault.message
  | .value fault => fault.message

/-- Save the settings, and tell whether that was done. Where a value cannot be written the file
holds what stands in front of it. -/
def save (s : Settings) (stack : Stack) (disk : Disk) (working : Path) :
    Settings × Disk × List Notice × Except SaveFault Bool :=
  match s.write stack disk working with
  | (disk, .ok ()) =>
    match (s.written stack).fault with
    | none => ({ s with modified := false }, disk, [], .ok true)
    | some fault => (s, disk, [], .error (.value fault))
  | (disk, .error .nulInText) => (s, disk, [], .error (.path .nulInText))
  | (disk, .error fault) => (s, disk, [.unwritable fault], .ok false)

end ArchiveExport.Settings
