import ArchiveExport.Data.OrderedMap
import ArchiveExport.Entry.Extension
import ArchiveExport.Script.Glob

/-!
# Resolving patterns

A pattern names entries of an archive. A pattern without wildcards names exactly one, whether or
not the archive has it; a literal without extension that is no key stands for its grouped keys. A
pattern with wildcards names every key it covers, and keys that share a stem are one entry.
-/

namespace ArchiveExport

/-- One entry to export: its name, the pattern that named it and the keys it is made of. -/
structure Entry where
  identifier : String
  pattern : String
  members : List String
  deriving DecidableEq

namespace Entry

/-- The keys behind a literal pattern, in key order. -/
def literalMembers (suffixes : List String) (pattern : String) (keys : List String) :
    List String :=
  if extension pattern ≠ "" ∨ pattern ∈ keys then
    [pattern]
  else
    let grouped := suffixes.map fun suffix => pattern ++ "." ++ suffix
    match keys.filter (· ∈ grouped) with
    | [] => [pattern]
    | members => members

/-- The name of the entry that a key belongs to under a pattern with wildcards, if the pattern
names the key. -/
def nameUnder (suffixes : List String) (matcher : Matcher) (patternGrouped : Bool)
    (key : String) : Option String :=
  let (form, grouped) := canonical suffixes key
  if (!patternGrouped || grouped) && matcher.accepts form then some form else none

/-- The keys that have a name, collected under it in order of first appearance. -/
def groupBy (name? : String → Option String) (keys : List String) :
    OrderedMap String (List String) :=
  keys.foldl
    (fun groups key =>
      match name? key with
      | some name => groups.alter name fun members => members.getD [] ++ [key]
      | none => groups)
    OrderedMap.empty

/-- The entries that a normalized pattern names; none only for a pattern with wildcards. -/
def resolve (suffixes : List String) (pattern : String) (keys : List String) : List Entry :=
  if Glob.hasWildcard pattern then
    let (form, grouped) := canonical suffixes pattern
    let matcher := Matcher.ofPattern form
    (groupBy (nameUnder suffixes matcher grouped) keys).entries.map
      fun (name, members) => ⟨name, pattern, members⟩
  else
    [⟨pattern, pattern, literalMembers suffixes pattern keys⟩]

/-- The complaint about a pattern that names nothing. -/
def missMessage (pattern : String) : String :=
  s!"No entries match pattern: {pattern}"

end Entry

end ArchiveExport
