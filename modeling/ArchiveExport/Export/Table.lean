import ArchiveExport.Data.OrderedMap
import ArchiveExport.Entry.Extension
import ArchiveExport.Resource.Format

/-!
# Dispatch tables

A dispatch table says for each extension how an entry is written: as text, as the document of a
decoded resource, or not at all, and which images are drawn for it. Rules with a condition on the
whole identifier come before the plain rule of their extension.
-/

namespace ArchiveExport

/-- How an entry is turned into a text or a document. -/
inductive Handler where
  | text
  | structured (format : Format)
  | unsupported
  deriving DecidableEq

namespace Handler

/-- The kind of output. -/
def kind : Handler → String
  | .text => "text"
  | .structured _ => "structured"
  | .unsupported => "unsupported"

/-- The handler in words. -/
def description : Handler → String
  | .structured format => s!"structured ({format.label})"
  | handler => handler.kind

end Handler

/-- How images are drawn for an entry. -/
inductive Renderer where
  | image
  | spriteFrames
  | bundleFrames
  | palette
  deriving DecidableEq

namespace Renderer

/-- The renderer's name. -/
def label : Renderer → String
  | .image => "image"
  | .spriteFrames => "sprite frames"
  | .bundleFrames => "sprite bundle frames"
  | .palette => "palette swatch"

end Renderer

/-- A handler for the identifiers that a condition holds for. -/
structure QualifiedRule where
  condition : String → Bool
  handler : Handler
  label : String := ""

/-- The rules for each extension. -/
structure DispatchTable where
  plain : OrderedMap String Handler := {}
  qualified : OrderedMap String (List QualifiedRule) := {}
  renderers : OrderedMap String Renderer := {}

namespace DispatchTable

/-- The table without rules. -/
def empty : DispatchTable := {}

/-- An extension in the form that is looked up. -/
def normalize (extension : String) : String :=
  Text.dropLeading '.' (Text.lower extension)

/-- The table with a plain rule, in place of an earlier one. -/
def register (t : DispatchTable) (extension : String) (handler : Handler) : DispatchTable :=
  { t with plain := t.plain.insert (normalize extension) handler }

/-- The table with a qualified rule behind the earlier ones. -/
def registerQualified (t : DispatchTable) (extension : String) (rule : QualifiedRule) :
    DispatchTable :=
  { t with
    qualified := t.qualified.alter (normalize extension) fun rules => rules.getD [] ++ [rule] }

/-- The table with a renderer, in place of an earlier one. -/
def registerRenderer (t : DispatchTable) (extension : String) (renderer : Renderer) :
    DispatchTable :=
  { t with renderers := t.renderers.insert (normalize extension) renderer }

/-- The qualified rules of an extension. -/
def qualifiedRules (t : DispatchTable) (extension : String) : List QualifiedRule :=
  (t.qualified.find? extension).getD []

/-- The handler of an identifier. -/
def handlerFor (t : DispatchTable) (identifier : String) : Handler :=
  let extension := Entry.extension identifier
  match (t.qualifiedRules extension).find? fun rule => rule.condition identifier with
  | some rule => rule.handler
  | none => (t.plain.find? extension).getD .unsupported

/-- The renderer of an identifier. -/
def rendererFor? (t : DispatchTable) (identifier : String) : Option Renderer :=
  t.renderers.find? (Entry.extension identifier)

/-- What is said about one extension. -/
def describeExtension (t : DispatchTable) (extension : String) : String :=
  let qualified := (t.qualifiedRules extension).map fun rule =>
    rule.handler.description ++ " if " ++ (if rule.label = "" then "qualified" else rule.label)
  let plain :=
    match t.plain.find? extension with
    | some handler => [handler.description]
    | none => if t.qualified.contains extension then ["otherwise unsupported"] else []
  let renderer := (t.renderers.find? extension).toList.map fun r => s!"texture ({r.label})"
  Text.join ", " (qualified ++ plain ++ renderer)

/-- The extensions that there are rules for, each once, in the order of their characters. -/
def extensions (t : DispatchTable) : List String :=
  (t.plain.keys ++ t.qualified.keys ++ t.renderers.keys).eraseDups.mergeSort
    fun a b => decide (a ≤ b)

/-- The rows of the table: an extension and what is said about it. -/
def describe (t : DispatchTable) : List (String × String) :=
  t.extensions.map fun extension =>
    (if extension = "" then "(none)" else extension, t.describeExtension extension)

/-- The extensions of text files. -/
def textExtensions : List String :=
  ["ini", "txt", "log", "po", "bat", "dat", "cfg", "ide", "ipl", "zon", "xml", "h", "uproject",
    "uplugin", "upluginmanifest", "csv", "json", "archive", "manifest", "lua", "yml", "yaml",
    "conf", "html", "htm"]

/-- The extensions of image files. -/
def imageExtensions : List String :=
  ["bmp", "tga", "png", "jpg", "jpeg"]

/-- The folder that compiled Lua chunks are decoded below. -/
def chunkFolder : String := "luafiles514"

/-- The rule for compiled Lua chunks. -/
def chunkRule : QualifiedRule where
  condition identifier := Text.contains chunkFolder (Text.lower identifier)
  handler := .structured .luaChunk
  label := s!"under {chunkFolder}/"

/-- The table with the rules for all formats. -/
def standard : DispatchTable :=
  let texts := textExtensions.foldl (fun t extension => t.register extension .text) empty
  let structured :=
    [("pal", Format.palette), ("spr", .sprite), ("act", .animation), ("gat", .altitude),
      ("rsw", .world), ("", .bundle)].foldl
      (fun t (extension, format) => t.register extension (.structured format)) texts
  let images :=
    imageExtensions.foldl (fun t extension => t.registerRenderer extension .image)
      (structured.registerQualified "lub" chunkRule)
  [("spr", Renderer.spriteFrames), ("pal", .palette), ("", .bundleFrames)].foldl
    (fun t (extension, renderer) => t.registerRenderer extension renderer) images

end DispatchTable

end ArchiveExport
