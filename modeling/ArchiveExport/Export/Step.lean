import ArchiveExport.Export.Codecs
import ArchiveExport.Export.Job
import ArchiveExport.Export.Naming
import ArchiveExport.Export.Outcome
import ArchiveExport.Resource.Document

/-!
# Steps of an export

An entry is exported in steps: its text or document, its images, its untouched members. A step
reads, decodes and writes; where it fails, its earlier outputs stay and the next step goes on.
-/

namespace ArchiveExport

/-- A part of an export that may fail; what was written before is kept. -/
abbrev Step (α : Type) : Type := ExceptT Cause (StateT Progress Job) α

namespace Step

variable {α : Type}

/-- Do a job as part of a step. -/
def job (j : Job α) : Step α :=
  ExceptT.lift (StateT.lift j)

/-- Go on with a result, or fail. -/
def get {ε : Type} (cause : ε → Cause) : Except ε α → Step α
  | .ok value => pure value
  | .error fault => throw (cause fault)

/-- Read an entry. -/
def read (key : String) : Step Bytes := do
  get .archive (← job (.read key .done))

/-- Ask whether there is an entry. -/
def contains (key : String) : Step Bool := do
  get .archive (← job (.contains key .done))

/-- Print warnings about a sprite. -/
def warn (warnings : List Sprite.Warning) : Step Unit :=
  warnings.forM fun w => job (.print .output w.message (.done ()))

/-- Write an output. -/
def emit (kind : OutputKind) (path : String) (data : Bytes) : Step Unit := do
  get .sink (← job (.write path data .done))
  modify fun p => { p with outputs := p.outputs ++ [⟨kind, path, data⟩] }

/-- Do a step; its failure is noted, and with `debug` set it is traced on the error channel. -/
def attempt (debug : Bool) (kind : OutputKind) (step : Step Unit) : StateT Progress Job Unit := do
  match ← step.run with
  | .ok () => pure ()
  | .error cause =>
    if debug then
      StateT.lift (.print .error (Console.traceOf cause.message) (.done ()))
    modify fun p => { p with failures := p.failures ++ [⟨kind, cause⟩] }

/-- Decode an entry in a format of single entries. -/
def decode (format : Format) (key : String) : Step Resource := do
  let data ← read key
  let (warnings, result) := Resource.decode format data
  warn warnings
  get (fun fault => .resource ⟨fault, key⟩) result

/-- Decode the sprite of a key. -/
def decodeSprite (key : String) : Step Sprite := do
  let (warnings, result) := Sprite.decode (← read key)
  warn warnings
  get (fun fault => .resource ⟨.sprite fault, key⟩) result

/-- The keys of the two halves of a bundle. -/
def bundleMembers (stem : String) : String × String :=
  (stem ++ ".spr", stem ++ ".act")

/-- Decode the two halves of a bundle. -/
def decodeBundle (stem : String) : Step Resource := do
  let (spriteKey, animationKey) := bundleMembers stem
  let hasSprite ← contains spriteKey
  let hasAnimation ← contains animationKey
  let missing :=
    (if hasSprite then [] else [spriteKey]) ++ (if hasAnimation then [] else [animationKey])
  if !missing.isEmpty then
    throw (.resource ⟨.companions missing, stem⟩)
  let sprite ← decodeSprite spriteKey
  let data ← read animationKey
  let animation ←
    get (fun fault => .resource ⟨.animation fault, animationKey⟩) (Animation.decode data)
  return .bundle stem sprite animation

/-- Decode the entry of an identifier. -/
def decodeEntry (format : Format) (key : String) : Step Resource :=
  match format with
  | .bundle => decodeBundle key
  | format => decode format key

/-- Write the text or the document of an identifier. -/
def produce (codecs : Codecs) (normalize : String → String) (naming : Naming)
    (handler : Handler) (identifier : String) : Step Unit :=
  match handler with
  | .unsupported => pure ()
  | .text => do
    let data ← read identifier
    let encoding ←
      match naming.textEncoding with
      | .text name => pure name
      | value => throw (.setting (.encoding (Setting.argumentName value)))
    let text ← get .charset (Text.Charset.decodeNamed codecs.charsets encoding data)
    let path ← get .setting (Setting.appendTo identifier naming.textSuffix)
    emit .text path (Text.Utf8.encode text)
  | .structured format => do
    let resource ← decodeEntry format (normalize identifier)
    let document ← get .setting (naming.document resource.document)
    let path ← get .setting (Setting.appendTo identifier naming.structuredSuffix)
    emit .structured path document

/-- The images of the frames of a sprite that can be drawn, each with its number unless it is the
only frame. -/
def drawFrames (s : Sprite) : Step (List (Option Nat × Image)) := do
  let drawn ← s.frames.zipIdx.mapM fun (frame, index) => do
    let (warnings, image) := s.image? frame
    warn warnings
    return image.map fun i => (if s.frames.length = 1 then none else some index, i)
  return drawn.filterMap id

/-- The images of an identifier. -/
def render (codecs : Codecs) (renderer : Renderer) (identifier : String) :
    Step (List (Option Nat × Image)) :=
  match renderer with
  | .image => do
    let image ←
      get (fun reason => .resource ⟨.noImage reason, identifier⟩)
        (codecs.image (← read identifier))
    return [(none, image)]
  | .spriteFrames => do
    drawFrames (← decodeSprite identifier)
  | .bundleFrames => do
    let (spriteKey, _) := bundleMembers identifier
    if !(← contains spriteKey) then
      throw (.resource ⟨.frameCompanion spriteKey, identifier⟩)
    drawFrames (← decodeSprite spriteKey)
  | .palette => do
    let palette ←
      get (fun fault => .resource ⟨.palette fault, identifier⟩)
        (Palette.decode (← read identifier))
    return [(none, palette.swatch 16)]

/-- Write the images of an identifier. -/
def texture (codecs : Codecs) (naming : Naming) (renderer : Renderer) (identifier : String) :
    Step Unit := do
  (← render codecs renderer identifier).forM fun (frame, image) => do
    let path ← get .setting (naming.texturePath identifier frame)
    emit .texture path (codecs.ofImage image)

/-- Write a member untouched. -/
def copy (member : String) : Step Unit := do
  emit .raw member (← read member)

end Step

end ArchiveExport
