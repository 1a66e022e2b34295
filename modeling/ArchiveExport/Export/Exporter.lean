import ArchiveExport.Export.Session
import ArchiveExport.Script.Directive
import ArchiveExport.Script.Source
import ArchiveExport.Settings.Basic

/-!
# Exporters

An exporter carries out scripts and lists of patterns. Each pattern is normalized and resolved
against the archive, and its entries are exported under the mode that is active at its line. What
fails is told and counted, and the run goes on; a malformed header alone ends it.
-/

namespace ArchiveExport

/-- What decides how scripts are carried out. -/
structure Exporter where
  dispatcher : Dispatcher
  /-- The suffixes of the keys that make up one entry, in lower case and without dots. -/
  suffixes : List String := Entry.standardSuffixes
  /-- The mode in force before the first header of a script. -/
  mode : Mode := .standard
  /-- The number of entries of a pattern that are exported at a time. -/
  workers : Int := 1
  /-- What the ledger calls the archive. -/
  label : String := ""

namespace Exporter

/-- How the settings name and write outputs. No name of an output has halves of surrogate pairs. -/
def namingOf (settings : Settings) : Except Setting.Misuse Naming := do
  return {
    structuredSuffix := (settings.value "structured_suffix").narrow
    textSuffix := (settings.value "text_suffix").narrow
    textureSuffix := (settings.value "texture_suffix").narrow
    indent := some (← settings.indent)
    textEncoding := (settings.value "text_encoding").narrow }

/-- The exporter that the settings describe. -/
def ofSettings (settings : Settings) (codecs : Codecs) (table : DispatchTable)
    (normalize : String → String) (label : String) : Except Setting.Misuse Exporter := do
  let suffixes ← settings.groupedSuffixes
  let naming ← namingOf settings
  let workers ← settings.workers
  let mode ← settings.mode
  return {
    dispatcher := { codecs, table, naming, debug := settings.debugMode, normalize }
    -- no key ends with a suffix that has halves of surrogate pairs
    suffixes := Entry.normalizeSuffixes (suffixes.filterMap Text.Wide.toString?)
    mode
    workers
    label }

/-- The place of a line in messages; patterns without a script have no line. -/
def place (line : Int) : String :=
  if line = 0 then "" else s!"Line {line}: "

/-- The message about an outcome. -/
def report (mode : Mode) (o : Outcome) : Message :=
  match o.status with
  | .success => ⟨.success, s!"{o.identifier} ({o.detail})"⟩
  | .unsupported =>
    if mode.raw then ⟨.warning, s!"{o.identifier}: nothing exported"⟩
    else ⟨.info, s!"{o.identifier}: unsupported format, skipped"⟩
  | .failed => ⟨.warning, o.identifier ++ ": export failed: " ++ o.cause.getD ""⟩

/-- Take note of the outcome of one entry, the `current`-th of `total`. -/
def settle (pattern : String) (mode : Mode) (current total : Nat) (name : String) (o : Outcome)
    (s : Session) : Session :=
  let s := s.showProgress current total name
  let message := report mode o
  let s := s.tell message.level message.text
  { s with tally := s.tally.count o }.recordOutcome pattern o

/-- Take note of the outcomes of entries from the `current`-th on. -/
def settleAll (pattern : String) (mode : Mode) (total : Nat) :
    Nat → List (Entry × Outcome) → Session → Session
  | _, [], s => s
  | current, (entry, o) :: rest, s =>
    settleAll pattern mode total (current + 1) rest
      (settle pattern mode current total entry.identifier o s)

/-- Export entries one after the other, taking note of each before the next one. -/
def exportInTurn (e : Exporter) (pattern : String) (mode : Mode) (total : Nat) :
    Nat → List Entry → Session → Session
  | _, [], s => s
  | current, entry :: rest, s =>
    let (o, s) := s.perform (e.dispatcher.dispatch entry mode)
    exportInTurn e pattern mode total (current + 1) rest
      (settle pattern mode current total entry.identifier o s)

/-- Export all entries. -/
def exportAll (e : Exporter) (mode : Mode) : List Entry → Session → List (Entry × Outcome) × Session
  | [], s => ([], s)
  | entry :: rest, s =>
    let (o, s) := s.perform (e.dispatcher.dispatch entry mode)
    let (outcomes, s) := exportAll e mode rest s
    ((entry, o) :: outcomes, s)

/-- Export the entries of a pattern. Several workers export all of them before any is told of. -/
def exportEntries (e : Exporter) (pattern : String) (entries : List Entry) (s : Session) :
    Session :=
  let mode := s.mode
  if e.workers ≤ 1 ∨ entries.length ≤ 1 then
    exportInTurn e pattern mode entries.length 1 entries s
  else
    let (outcomes, s) := exportAll e mode entries s
    settleAll pattern mode entries.length 1 outcomes s

/-- Export what a pattern at a line names. -/
def exportPattern (e : Exporter) (text : String) (line : Int) (s : Session) : Session :=
  let pattern := e.dispatcher.normalize text
  match Entry.resolve e.suffixes pattern s.site.archive.keys with
  | [] =>
    let s := s.tell .warning (place line ++ Entry.missMessage pattern)
    { s with tally := s.tally.miss pattern }.recordMiss pattern
  | entries =>
    let count := entries.length
    let noun := if count = 1 then "entry" else "entries"
    exportEntries e pattern entries
      (s.tell .info s!"{place line}{pattern}: {count} {noun} {s.mode.header}")

/-- Carry out a directive. -/
def obey (e : Exporter) (s : Session) : Directive → Session
  | .comment _ _ => s
  | .mode mode line => { s with mode }.tell .info s!"{place line}export mode {mode.header}"
  | .pattern text line => exportPattern e text line s

/-- Carry out the lines of a script up to its first malformed header. A fault of the text behind
the lines counts only where no header comes before it; it leaves the run unfinished. -/
def runLines (e : Exporter) (script : String) (lines : List String)
    (textFault : Option Text.Charset.Fault) (s : Session) :
    Session × Except Text.Charset.Fault Tally :=
  let (directives, headerFault) := Directive.parseLines lines
  let s := directives.foldl (obey e) (s.start script e.label e.mode)
  match headerFault, textFault with
  | some fault, _ =>
    let s := s.tell .error s!"{script}: {fault.message}"
    let s := { s with tally := s.tally.abort fault.message }.finish
    (s, .ok s.tally)
  | none, some fault => (s, .error fault)
  | none, none =>
    let s := s.finish
    (s, .ok s.tally)

/-- Carry out a script. -/
def runScript (e : Exporter) (script : String) (lines : List String) (s : Session) :
    Session × Tally :=
  let s := (runLines e script lines none s).1
  (s, s.tally)

/-- Carry out the script that a file holds. -/
def runFile (e : Exporter) (script : String) (data : Bytes) (s : Session) :
    Session × Except Text.Charset.Fault Tally :=
  let (lines, fault) := Script.linesOf data
  runLines e script lines fault s

/-- Export patterns without a script, in one mode. -/
def runPatterns (e : Exporter) (patterns : List String) (mode : Mode) (s : Session) :
    Session × Tally :=
  let s := s.start "<patterns>" e.label mode
  let s := (patterns.map Text.trim).foldl
    (fun s pattern => if pattern = "" then s else exportPattern e pattern 0 s) s
  let s := s.finish
  (s, s.tally)

end Exporter

end ArchiveExport
