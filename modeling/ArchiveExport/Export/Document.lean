import ArchiveExport.Entry.Resolution
import ArchiveExport.Export.Naming
import ArchiveExport.Export.Tally
import ArchiveExport.Json.Access

/-!
# Documents of exports

Entries, outcomes, tallies and the forms of outputs as trees of plain values.
-/

namespace ArchiveExport

/-- The document of an entry. -/
def Entry.document (e : Entry) : Json :=
  .object [("identifier", .text e.identifier), ("pattern", .text e.pattern),
    ("members", .arrayOf .text e.members)]

/-- The document of an outcome. -/
def Outcome.document (o : Outcome) : Json :=
  .object [("identifier", .text o.identifier), ("status", .text o.status.label),
    ("failed", .bool o.isFailed), ("outputs", .arrayOf .text o.outputs),
    ("cause", .orNull .text o.cause), ("detail", .text o.detail),
    ("digest", .orNull .text o.digest)]

/-- The document of a tally without its outcomes. -/
def Tally.document (t : Tally) : Json :=
  .object [("success", .bool t.success), ("exported", .nat t.exported),
    ("unsupported", .nat t.unsupported), ("failed", .arrayOf .text t.failed),
    ("misses", .arrayOf .text t.misses), ("aborted", .bool t.aborted),
    ("fatal_error", .orNull .text t.fatal), ("summary", .text t.summary),
    ("line", .text t.summaryLine)]

/-- The document of the forms of outputs. -/
def Naming.settings (n : Naming) : Json :=
  .object [("structured_suffix", n.structuredSuffix), ("text_suffix", n.textSuffix),
    ("texture_suffix", n.textureSuffix), ("json_indent", .orNull .integer n.indent),
    ("text_encoding", n.textEncoding)]

/-- The forms of outputs with those of a document in place of the standard ones. -/
def Naming.ofSettings (json : Json) : Naming :=
  let standard : Naming := {}
  let part (name : String) (value : Json) : Json := (json.member? name).getD value
  { structuredSuffix := part "structured_suffix" standard.structuredSuffix
    textSuffix := part "text_suffix" standard.textSuffix
    textureSuffix := part "texture_suffix" standard.textureSuffix
    indent := (json.member? "json_indent").elim standard.indent Json.integer?
    textEncoding := part "text_encoding" standard.textEncoding }

end ArchiveExport
