import ArchiveExport.Data.OrderedMap
import ArchiveExport.Environment
import ArchiveExport.Script.Mode
import ArchiveExport.Settings.Value

/-!
# Settings

Settings are values under names. Any value may stand under any name; those with a meaning are read
through the functions here, which report a value that is not fit for its use, and some are checked
already when they are set.
-/

namespace ArchiveExport

open Text (Wide)

/-- How many brackets may be nested in what is read, written and shown. Each is done by functions
that call themselves, and ends where the stack that they run on does. The numbers here are those of
a stack with the usual limit and few calls on it; they vary by a few calls with what is done on the
innermost level. -/
structure Stack where
  reading : Nat := 994
  writing : Nat := 995
  showing : Nat := 998
  two_le_reading : 2 ≤ reading := by decide
  two_le_writing : 2 ≤ writing := by decide

/-- Values under names, where they are kept, and whether they have been changed since then. -/
structure Settings where
  path : String
  values : OrderedMap String (Json Wide)
  modified : Bool := false

namespace Settings

/-- The values where nothing else is said. -/
def standardValues : OrderedMap String (Json Wide) :=
  ⟨[("output_path", .text ""), ("default_modes", .array [.text "json"]),
    ("grouped_suffixes", .array [.text "spr", .text "act"]), ("structured_suffix", .text ".json"),
    ("text_suffix", .text ".txt"), ("texture_suffix", .text ".png"), ("json_indent", .integer 2),
    ("text_encoding", .text "utf-8"), ("export_workers", .integer 1),
    ("grf_cache_size_mb", .integer 64), ("ledger_enabled", .bool false), ("ledger_path", .text ""),
    ("use_colors", .bool true), ("log_file", .text ""), ("debug_mode", .bool false)]⟩

/-- The settings where nothing else is said, kept at a path or at the user's own. -/
def standard (environment : Environment) (path : Option String) : Settings where
  path :=
    match path with
    | none | some "" => environment.settingsPath
    | some path => path
  values := standardValues

/-- The settings with all values as they are where nothing else is said. -/
def reset (s : Settings) : Settings :=
  { s with values := standardValues, modified := true }

/-- The value under a name. -/
def value? (s : Settings) (name : String) : Option (Json Wide) :=
  s.values.find? name

/-- The value under a name that has one. -/
def value (s : Settings) (name : String) : Json Wide :=
  (s.value? name).getD .null

/-- The settings with a value under a name, whatever it is. -/
def put (s : Settings) (name : String) (value : Json Wide) : Settings :=
  { s with values := s.values.insert name value, modified := true }

/-- The values under their names as members of an object. -/
def members (s : Settings) : List (Wide × Json Wide) :=
  s.values.entries.map fun e => (.ofString e.1, e.2)

/-- The values as an object. -/
def document (s : Settings) : Json Wide :=
  .object s.members

/-- The array of names. -/
def listed (names : List String) : Json Wide :=
  .arrayOf (fun name : String => .text (.ofString name)) names

/-! ### Reading -/

/-- The names of the modes in force at the start of a script. -/
def defaultModes (s : Settings) : Except Setting.Misuse (List (Json Wide)) :=
  Setting.parts (s.value "default_modes")

/-- The mode in force at the start of a script. -/
def mode (s : Settings) : Except Setting.Misuse Mode := do
  (← s.defaultModes).foldlM
    (fun mode item => do
      let name ← Setting.textFor "strip" item
      match Representation.ofName? (Mode.nameForm name.narrow) with
      | some representation => return mode.add representation
      | none => throw (.unknownMode name))
    Mode.none

/-- The suffixes of the keys that make up one entry, in lower case and without dots in front. -/
def groupedSuffixes (s : Settings) : Except Setting.Misuse (List Wide) := do
  (← Setting.parts (s.value "grouped_suffixes")).mapM fun item => do
    return (← Setting.textFor "lower" item).lower.dropLeading '.'

/-- The blanks for each level of a document. -/
def indent (s : Settings) : Except Setting.Misuse Int :=
  Setting.integer (s.value "json_indent")

/-- The number of entries that are exported at a time, at least one. -/
def workers (s : Settings) : Except Setting.Misuse Int :=
  (Setting.integer (s.value "export_workers")).map (max 1)

/-- The size of the cache. -/
def cacheMegabytes (s : Settings) : Except Setting.Misuse Int :=
  Setting.integer (s.value "grf_cache_size_mb")

/-- Whether runs are recorded. -/
def ledgerEnabled (s : Settings) : Bool :=
  Setting.isTrue (s.value "ledger_enabled")

/-- Where runs are recorded: at the path that is set, or at the user's own. -/
def ledgerPath (s : Settings) (environment : Environment) : Json Wide :=
  if Setting.isTrue (s.value "ledger_path") then s.value "ledger_path"
  else .text environment.ledgerPath

/-- Whether messages are printed in colour. -/
def usesColors (s : Settings) : Bool :=
  Setting.isTrue (s.value "use_colors")

/-- Whether failures are traced. -/
def debugMode (s : Settings) : Bool :=
  Setting.isTrue (s.value "debug_mode")

/-! ### Setting -/

/-- The names of modes. -/
def knownModes : List String := ["raw", "json", "text", "texture"]

/-- Set the modes in force at the start of a script: at least one, and none that there is not. No
name with half of a pair is one of a mode, and neither is one with U+FFFD in its place. -/
def setDefaultModes (s : Settings) (stack : Stack) (value : Json Wide) :
    Except Setting.Misuse Settings := do
  let names ← (← Setting.parts value).mapM fun item => do
    return Mode.nameForm (← Setting.shown stack.showing item).narrow
  if names.isEmpty ∨ !names.all (· ∈ knownModes) then
    throw .modes
  return s.put "default_modes" (listed names)

/-- Set the suffixes of the keys that make up one entry. -/
def setGroupedSuffixes (s : Settings) (stack : Stack) (value : Json Wide) :
    Except Setting.Misuse Settings := do
  let suffixes ← (← Setting.parts value).mapM fun item => do
    return (← Setting.shown stack.showing item).lower.dropLeading '.'
  return s.put "grouped_suffixes" (.arrayOf .text suffixes)

/-- The greatest number of workers that can be set. -/
def maxWorkers : Int := 16

/-- Set the number of entries that are exported at a time. -/
def setWorkers (s : Settings) (value : Json Wide) : Except Setting.Misuse Settings := do
  let n ← Setting.integer value
  return s.put "export_workers" (.integer (max 1 (min maxWorkers n)))

/-- Set whether something is done. -/
def setFlag (s : Settings) (name : String) (value : Json Wide) : Settings :=
  s.put name (.bool (Setting.isTrue value))

/-- What can be asked about settings by name. -/
inductive Property where
  /-- A value as it stands under its name. -/
  | plain (name : String)
  | outputPath
  | defaultModes
  | groupedSuffixes
  | indent
  | workers
  | cacheMegabytes
  | ledgerEnabled
  | ledgerPath
  | usesColors
  | debugMode
  | modified
  deriving DecidableEq

namespace Property

/-- The property of a name. -/
def ofName? (name : String) : Option Property :=
  match name with
  | "structured_suffix" | "text_suffix" | "texture_suffix" | "text_encoding" | "log_file" =>
    some (.plain name)
  | "output_path" => some .outputPath
  | "default_modes" => some .defaultModes
  | "grouped_suffixes" => some .groupedSuffixes
  | "json_indent" => some .indent
  | "export_workers" => some .workers
  | "grf_cache_size_mb" => some .cacheMegabytes
  | "ledger_enabled" => some .ledgerEnabled
  | "ledger_path" => some .ledgerPath
  | "use_colors" => some .usesColors
  | "debug_mode" => some .debugMode
  | "is_modified" => some .modified
  | _ => none

/-- The name of a property. -/
def name : Property → String
  | .plain name => name
  | .outputPath => "output_path"
  | .defaultModes => "default_modes"
  | .groupedSuffixes => "grouped_suffixes"
  | .indent => "json_indent"
  | .workers => "export_workers"
  | .cacheMegabytes => "grf_cache_size_mb"
  | .ledgerEnabled => "ledger_enabled"
  | .ledgerPath => "ledger_path"
  | .usesColors => "use_colors"
  | .debugMode => "debug_mode"
  | .modified => "is_modified"

end Property

/-- What a property of settings is. -/
def get (s : Settings) (environment : Environment) :
    Property → Except Setting.Misuse (Json Wide)
  | .plain name => .ok (s.value name)
  | .outputPath => .ok (s.value "output_path")
  | .defaultModes => s.defaultModes.map .array
  | .groupedSuffixes => s.groupedSuffixes.map (.arrayOf .text)
  | .indent => s.indent.map .integer
  | .workers => s.workers.map .integer
  | .cacheMegabytes => s.cacheMegabytes.map .integer
  | .ledgerEnabled => .ok (.bool s.ledgerEnabled)
  | .ledgerPath => .ok (s.ledgerPath environment)
  | .usesColors => .ok (.bool s.usesColors)
  | .debugMode => .ok (.bool s.debugMode)
  | .modified => .ok (.bool s.modified)

/-- Set a property. Most can only be read. -/
def set (s : Settings) (stack : Stack) (property : Property) (value : Json Wide) :
    Except Setting.Misuse Settings :=
  match property with
  | .outputPath => .ok (s.put "output_path" value)
  | .defaultModes => s.setDefaultModes stack value
  | .groupedSuffixes => s.setGroupedSuffixes stack value
  | .workers => s.setWorkers value
  | .ledgerEnabled => .ok (s.setFlag "ledger_enabled" value)
  | .debugMode => .ok (s.setFlag "debug_mode" value)
  | property => .error (.fixed property.name)

end Settings

end ArchiveExport
