import ArchiveExport.Command.Action
import ArchiveExport.Command.Basic
import ArchiveExport.Export.Table
import ArchiveExport.Script.Glob

/-!
# Listings

What an archive holds, as far as it is asked for, and how the files of each extension are exported.
-/

namespace ArchiveExport.Command

namespace ListOptions

/-- The keys that a pattern matches; without one, all of them. -/
def select (o : ListOptions) (archive : Archive) : List String :=
  match o.pattern.filter (· ≠ "") with
  | some pattern =>
    let matcher := Matcher.ofPattern (archive.normalize pattern)
    archive.keys.filter matcher.accepts
  | none => archive.keys

/-- The keys up to the limit; a negative one counts from the end. -/
def shown (o : ListOptions) (keys : List String) : List String :=
  if o.limit < 0 then keys.take (keys.length - o.limit.natAbs) else keys.take o.limit.toNat

/-- The width of sizes. -/
def sizeWidth : Nat := 12

/-- The line of a key, with the size of its entry in front where sizes are asked for. -/
def line (o : ListOptions) (archive : Archive) (key : String) : Action String := do
  if !o.verbose then
    return key
  let info ← Action.get .archive (archive.info? (← MonadState.get).disk key)
  let size := (info.map (·.size)).getD 0
  return Text.padLeft sizeWidth (Text.Numeral.grouped size) ++ "  " ++ key

/-- List what an archive holds. -/
def perform (o : ListOptions) : Action Exit := do
  if o.noColor then
    Action.onConsole (·.withoutColor)
  let some archive ← Action.openArchive o.archives Cache.standardLimit
    | return .refused
  let sources := Text.join ", " o.archives
  Action.printHeading s!"Contents: {sources}"
  let keys := o.select archive
  (o.shown keys).forM fun key => do
    Action.printLine (← o.line archive key)
  if o.limit < keys.length then
    Action.printLine s!"\n... and {keys.length - o.limit} more"
  Action.printLine s!"\nTotal: {keys.length} entries"
  return .done

end ListOptions

/-- The width of extensions. -/
def extensionWidth : Nat := 18

/-- The row of an extension. -/
def formatRow (extension handling : String) : String :=
  Text.padRight extensionWidth extension ++ " " ++ handling

/-- List how the files of each extension are exported. -/
def listFormats : Action Exit := do
  Action.printHeading "Export Formats"
  Action.printLine (formatRow "Extension" "Handling")
  Action.printRule 60
  DispatchTable.standard.describe.forM fun (extension, handling) =>
    Action.printLine (formatRow extension handling)
  Action.printLine "\nOther extensions: unsupported (exported only in [raw] mode)"
  return .done

end ArchiveExport.Command
