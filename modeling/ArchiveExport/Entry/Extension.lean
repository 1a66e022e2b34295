import ArchiveExport.Text.Basic
import ArchiveExport.Text.Lowercase

/-!
# Extensions of archive keys

The extension of a key is what follows the last dot of its last component, provided that a
character of that component precedes the dot. Some formats spread over several keys that differ in
their extension alone; a key with such a grouped suffix is known by its stem.
-/

namespace ArchiveExport.Entry

/-- The key up to the dot before its extension, and the extension in lower case; a key without
extension is its own stem. -/
def splitExtension (key : String) : String × String :=
  let backward := key.toList.reverse
  let suffix := backward.takeWhile fun c => c ≠ '.' ∧ c ≠ '/'
  match backward.drop suffix.length with
  | '.' :: c :: stem =>
    if c = '/' then (key, "")
    else (String.ofList (c :: stem).reverse, Text.lower (String.ofList suffix.reverse))
  | _ => (key, "")

/-- The stem of a key. -/
def stem (key : String) : String := (splitExtension key).1

/-- The extension of a key, empty when it has none. -/
def extension (key : String) : String := (splitExtension key).2

/-- Grouped suffixes in the form that extensions are compared with. -/
def normalizeSuffixes (suffixes : List String) : List String :=
  suffixes.map fun s => Text.dropLeading '.' (Text.lower s)

/-- The suffixes of sprite parts. -/
def standardSuffixes : List String := ["spr", "act"]

/-- The name under which a key or pattern is compared, and whether that is a stem. -/
def canonical (suffixes : List String) (key : String) : String × Bool :=
  let (stem, extension) := splitExtension key
  if extension ≠ "" ∧ extension ∈ suffixes then (stem, true) else (key, false)

end ArchiveExport.Entry
