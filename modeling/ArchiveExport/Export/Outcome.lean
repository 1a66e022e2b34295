import ArchiveExport.Archive.Fault
import ArchiveExport.Checksum.Md5
import ArchiveExport.Export.Sink
import ArchiveExport.Export.Table
import ArchiveExport.Settings.Value

/-!
# Outcomes

What became of an entry: the outputs that were written, in order, and the faults of the steps that
failed. An entry failed when a step did; else it was exported when anything was written, and is
unsupported when nothing was.
-/

namespace ArchiveExport

/-- Why a step fails. -/
inductive Cause where
  | archive (fault : Archive.Fault)
  | resource (fault : Resource.FaultAt)
  | charset (fault : Text.Charset.Fault)
  | setting (misuse : Setting.Misuse)
  | sink (fault : Sink.Fault)
  deriving DecidableEq

/-- The cause in words. -/
def Cause.message : Cause → String
  | .archive fault => fault.message
  | .resource fault => fault.message
  | .charset fault => fault.message
  | .setting misuse => misuse.message
  | .sink fault => fault.message

/-- The kinds of outputs. -/
inductive OutputKind where
  | text
  | structured
  | texture
  | raw
  deriving DecidableEq

namespace OutputKind

/-- The kind's name. -/
def label : OutputKind → String
  | .text => "text"
  | .structured => "structured"
  | .texture => "texture"
  | .raw => "raw"

end OutputKind

/-- What became of an entry. -/
inductive Status where
  | success
  | unsupported
  | failed
  deriving DecidableEq

namespace Status

/-- The status as a word. -/
def label : Status → String
  | .success => "success"
  | .unsupported => "unsupported"
  | .failed => "failed"

end Status

/-- An output that was written. -/
structure Output where
  kind : OutputKind
  path : String
  data : Bytes

/-- A step that failed. -/
structure Failure where
  kind : OutputKind
  cause : Cause

namespace Failure

/-- The failure in words. -/
def message (f : Failure) : String :=
  s!"{f.kind.label}: {f.cause.message}"

end Failure

/-- What was written for an entry, and what failed. -/
structure Progress where
  outputs : List Output := []
  failures : List Failure := []

/-- What became of an entry. -/
structure Outcome where
  identifier : String
  status : Status
  /-- The relative paths written. -/
  outputs : List String := []
  /-- The failures in words, if there are any. -/
  cause : Option String := none
  /-- What kinds of outputs were written. -/
  detail : String := ""
  /-- The digest of all octets written, if any output was. -/
  digest : Option String := none
  deriving DecidableEq

namespace Outcome

/-- Whether an entry failed. -/
def isFailed (o : Outcome) : Bool := o.status = .failed

/-- Kinds with the number of their outputs, in the order of their first output. -/
def summarize (kinds : List OutputKind) : String :=
  Text.join ", " <| kinds.eraseDups.map fun kind =>
    let count := kinds.count kind
    if count = 1 then kind.label else s!"{kind.label} x{count}"

/-- The outcome of an entry by what was written and what failed. -/
def ofProgress (identifier : String) (p : Progress) : Outcome where
  identifier := identifier
  status :=
    if !p.failures.isEmpty then .failed else if p.outputs.isEmpty then .unsupported else .success
  outputs := p.outputs.map Output.path
  cause :=
    if p.failures.isEmpty then none
    else some (Text.join "; " (p.failures.map Failure.message))
  detail := summarize (p.outputs.map Output.kind)
  digest :=
    if p.outputs.isEmpty then none
    else some (Checksum.Md5.hex (p.outputs.flatMap Output.data))

end Outcome

end ArchiveExport
