import ArchiveExport.Disk.Path

/-!
# Environments

Where a user's settings, ledger and outputs are kept unless something else is said. That depends
on the platform and on the folders that the user's environment names.
-/

namespace ArchiveExport

/-- The platforms that keep a user's files in different places. -/
inductive Platform where
  | windows
  | mac
  | other
  deriving DecidableEq

/-- The platform of a name. -/
def Platform.ofName : String → Platform
  | "win32" => .windows
  | "darwin" => .mac
  | _ => .other

/-- The platform and the folders that the environment names. -/
structure Environment where
  platform : Platform := .other
  home : Option String := none
  configHome : Option String := none
  appData : Option String := none

namespace Environment

/-- The name of the program's folders. -/
def programName : String := "AssetExporter"

/-- The home folder of the user that programs run as where none is named. -/
def standardHome : String := "/root"

/-- The home folder, without slashes at its end. -/
def homeFolder (e : Environment) : String :=
  let home := Text.dropTrailing '/' (e.home.getD standardHome).toList
  if home.isEmpty then "/" else String.ofList home

/-- The texts one behind the other. -/
def joinAll (folder : String) (names : List String) : String :=
  names.foldl Path.join folder

/-- The folder for the settings and the ledger. -/
def dataFolder (e : Environment) : String :=
  match e.platform with
  | .windows => Path.join (e.appData.getD e.homeFolder) programName
  | .mac => joinAll e.homeFolder ["Library", "Application Support", programName]
  | .other => Path.join (e.configHome.getD (Path.join e.homeFolder ".config")) programName

/-- The path of the settings. -/
def settingsPath (e : Environment) : String :=
  Path.join e.dataFolder "config.json"

/-- The path of the ledger. -/
def ledgerPath (e : Environment) : String :=
  Path.join e.dataFolder "ledger.db"

/-- The folder for outputs. -/
def outputFolder (e : Environment) : String :=
  let documents :=
    match e.platform with
    | .windows => Path.join e.homeFolder "Documents"
    | _ => e.homeFolder
  Path.join documents programName

end Environment

end ArchiveExport
