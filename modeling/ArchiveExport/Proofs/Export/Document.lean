import ArchiveExport.Proofs.Archive.Opened
import ArchiveExport.Proofs.Export.Files
import ArchiveExport.Proofs.Export.Step
import ArchiveExport.Proofs.Json.Reading
import ArchiveExport.Proofs.Json.Validity
import ArchiveExport.Proofs.Resource.Documents
import ArchiveExport.Proofs.Text.Utf8

/-!
# Exported documents

A resource that is exported is written as one document in UTF-8. Whatever it was decoded from and
however it is indented, the document is read back as the tree of the resource. It is a JSON text
exactly when no real number of the resource is infinite or no number.
-/

namespace ArchiveExport

namespace Naming

variable {naming : Naming} {tree : Json} {data : Bytes}

/-- A document is the text of its tree and a line feed, whatever the indentation. -/
theorem exists_layout_of_document (h : naming.document tree = .ok data) :
    ∃ layout : Json.Layout, layout.asciiOnly = false ∧
      data = Text.Utf8.encode (Json.write layout 0 tree ++ ['\n']) := by
  have hlayout : ∀ layout, naming.layout = .ok layout → layout.asciiOnly = false := by
    intro layout hlayout
    unfold Naming.layout at hlayout
    split at hlayout
    · cases hlayout
      rfl
    · split at hlayout
      · cases hlayout
      · cases hlayout
        rfl
  unfold document at h
  cases hnaming : naming.layout with
  | error misuse =>
      rw [hnaming] at h
      cases h
  | ok layout =>
      rw [hnaming] at h
      cases h
      refine ⟨layout, hlayout layout hnaming, ?_⟩
      simp only [Bytes.ofString, Json.render, String.toList_append, String.toList_ofList]
      rfl

end Naming

namespace Step

variable {format : Format}

/-- Nothing is written, and the document of a resource that was decoded can be read back. -/
def DecodesLegible (result : Except Cause Resource) (outputs : List Output) : Prop :=
  outputs = [] ∧ ∀ resource, result = .ok resource → resource.document.Legible

theorem decodesLegible_error (cause : Cause) : DecodesLegible (.error cause) [] :=
  ⟨rfl, fun _ h => by cases h⟩

theorem decodesLegible_ok {resource : Resource} (h : resource.document.Legible) :
    DecodesLegible (.ok resource) [] := by
  refine ⟨rfl, fun other hother => ?_⟩
  cases hother
  exact h

theorem meets_ite {α : Type} {condition : Prop} [Decidable condition] {step other : Step α}
    {post : Except Cause α → List Output → Prop} (h : step.Meets post)
    (hother : other.Meets post) : Meets (if condition then step else other) post := by
  split
  · exact h
  · exact hother

theorem meets_decode (hformat : format ≠ .luaChunk) (key : String) :
    (decode format key).Meets DecodesLegible := by
  refine (quiet_read key).bind decodesLegible_error fun data => ?_
  rcases hdecode : Resource.decode format data with ⟨warnings, result⟩
  refine (quiet_warn warnings).bind decodesLegible_error fun _ => ?_
  cases result with
  | error fault => exact meets_throw (decodesLegible_error _)
  | ok resource =>
      exact meets_pure (decodesLegible_ok (Resource.legible_document_of_decode hformat hdecode))

theorem meets_decodeSprite (key : String) :
    (decodeSprite key).Meets fun result outputs => outputs = [] ∧
      ∀ sprite, result = .ok sprite → sprite.document.Legible := by
  refine (quiet_read key).bind (fun cause => ⟨rfl, fun _ h => by cases h⟩) fun data => ?_
  rcases hdecode : Sprite.decode data with ⟨warnings, result⟩
  refine (quiet_warn warnings).bind (fun cause => ⟨rfl, fun _ h => by cases h⟩) fun _ => ?_
  cases result with
  | error fault => exact meets_throw ⟨rfl, fun _ h => by cases h⟩
  | ok sprite =>
      refine meets_pure ⟨rfl, fun other h => ?_⟩
      cases h
      exact Sprite.legible_document_of_decode (congrArg Prod.snd hdecode)

theorem legible_bundle {stem : String} {sprite : Sprite} {animation : Animation}
    (hsprite : sprite.document.Legible) (hanimation : animation.document.Legible) :
    (Resource.bundle stem sprite animation).document.Legible := by
  refine Json.legible_object (by simp) ?_
  simp only [List.forall_mem_cons]
  exact ⟨Json.legible_text stem, hsprite, hanimation, List.forall_mem_nil _⟩

theorem meets_decodeBundle (stem : String) : (decodeBundle stem).Meets DecodesLegible := by
  refine (quiet_contains _).bind decodesLegible_error fun hasSprite => ?_
  refine (quiet_contains _).bind decodesLegible_error fun hasAnimation => ?_
  have hrest : Meets (do
      let sprite ← decodeSprite (stem ++ ".spr")
      let data ← read (stem ++ ".act")
      let animation ←
        get (fun fault => .resource ⟨.animation fault, stem ++ ".act"⟩) (Animation.decode data)
      return Resource.bundle stem sprite animation) DecodesLegible := by
    refine (meets_decodeSprite _).bind ?_ ?_
    · rintro cause outputs ⟨rfl, -⟩
      exact decodesLegible_error cause
    rintro sprite outputs ⟨rfl, hsprite⟩
    refine (quiet_read _).bind decodesLegible_error fun data => ?_
    cases hanimation : Animation.decode data with
    | error fault => exact meets_throw (decodesLegible_error _)
    | ok animation =>
        exact meets_pure (decodesLegible_ok (legible_bundle (hsprite sprite rfl)
          (Animation.legible_document_of_decode hanimation)))
  exact meets_ite ((quiet_throw _).bind decodesLegible_error fun _ => hrest) hrest

/-- Whatever is decoded for a document can be read back from it. -/
theorem meets_decodeEntry (hformat : format ≠ .luaChunk) (key : String) :
    (decodeEntry format key).Meets DecodesLegible := by
  unfold decodeEntry
  split
  · exact meets_decodeBundle key
  · exact meets_decode hformat key

/-- Write the document of a resource. -/
def emitDocument (naming : Naming) (identifier : String) (resource : Resource) : Step Unit := do
  let document ← get .setting (naming.document resource.document)
  let path ← get .setting (Setting.appendTo identifier naming.structuredSuffix)
  emit .structured path document

theorem produce_structured_eq (codecs : Codecs) (normalize : String → String) (naming : Naming)
    (identifier : String) :
    produce codecs normalize naming (.structured format) identifier =
      (decodeEntry format (normalize identifier) >>= emitDocument naming identifier) :=
  rfl

/-- Where a document is written, it is noted and stands on the disk. -/
theorem exists_output_of_emitDocument {naming : Naming} {identifier : String}
    {resource : Resource} {site : Site} {p : Progress} (hroot : site.sink.root.Normal)
    (h : (((emitDocument naming identifier resource).run.run p).run site).1.1 = .ok ()) :
    ∃ path data, naming.document resource.document = .ok data ∧
      (((emitDocument naming identifier resource).run.run p).run site).1.2.outputs =
        p.outputs ++ [⟨.structured, path, data⟩] ∧
      (((emitDocument naming identifier resource).run.run p).run site).2.disk.file?
        (site.sink.place path) = some data := by
  unfold emitDocument at h ⊢
  cases hdocument : naming.document resource.document with
  | error misuse =>
      rw [hdocument] at h
      cases h
  | ok data =>
      cases hpath : Setting.appendTo identifier naming.structuredSuffix with
      | error misuse =>
          rw [hdocument, hpath] at h
          cases h
      | ok path =>
          rw [hdocument, hpath] at h
          have hemit : (get Cause.setting (.ok data : Except Setting.Misuse Bytes) >>= fun data =>
              get Cause.setting (.ok path : Except Setting.Misuse String) >>= fun path =>
              emit .structured path data) = emit .structured path data := rfl
          rw [hemit, run_emit, Job.run] at h ⊢
          rcases hwrite : site.sink.write site.disk path data with ⟨sink, disk, answer⟩
          rw [hwrite] at h
          cases answer with
          | error fault => cases h
          | ok target =>
              have hheld := (Site.Wrote.of_write hroot none path data hwrite).held
                (List.nodup_singleton _) (path, data) List.mem_cons_self (by simp)
              exact ⟨path, data, rfl, rfl, hheld⟩

/-- Behind an export, the text of a tree with a line feed is noted and stands on the disk. -/
def DocumentWritten (site : Site) (before after : Progress) (left : Site) (tree : Json)
    (path : String) (cs : List Char) : Prop :=
  (∃ layout : Json.Layout, layout.asciiOnly = false ∧ cs = Json.write layout 0 tree ++ ['\n']) ∧
    after.outputs = before.outputs ++ [⟨.structured, path, Text.Utf8.encode cs⟩] ∧
    left.disk.file? (site.sink.place path) = some (Text.Utf8.encode cs)

section Exports

variable {site : Site} {before : Progress} {codecs : Codecs} {normalize : String → String}
  {naming : Naming} {identifier : String}

/-- An export that succeeds has decoded a resource and written its document. -/
theorem exists_documentWritten (hroot : site.sink.root.Normal) (hformat : format ≠ .luaChunk)
    (h : (((produce codecs normalize naming (.structured format) identifier).run.run before).run
      site).1.1 = .ok ()) :
    ∃ resource path cs, resource.document.Legible ∧
      (((decodeEntry format (normalize identifier)).run.run before).run site).1.1 =
        .ok resource ∧
      DocumentWritten site before
        (((produce codecs normalize naming (.structured format) identifier).run.run before).run
          site).1.2
        (((produce codecs normalize naming (.structured format) identifier).run.run before).run
          site).2
        resource.document path cs := by
  obtain ⟨result, outputs, middle, ⟨rfl, hlegible⟩, hrun⟩ :=
    meets_decodeEntry hformat (normalize identifier) site
  have hdecode := (hrun before).1
  have hmiddle : middle.sink.root = site.sink.root := by
    have hkept := (Job.written_run
      ((decodeEntry format (normalize identifier)).run.run before) site).1
    rwa [hdecode] at hkept
  rw [produce_structured_eq, run_bind, Job.run_bind, hdecode] at h ⊢
  cases result with
  | error cause => cases h
  | ok resource =>
      rw [List.append_nil] at h ⊢
      obtain ⟨path, data, hdata, houtputs, hfile⟩ :=
        exists_output_of_emitDocument (hmiddle ▸ hroot) h
      obtain ⟨layout, hlayout, rfl⟩ := Naming.exists_layout_of_document hdata
      have hplace : middle.sink.place path = site.sink.place path := by
        rw [Sink.place_eq_follow, Sink.place_eq_follow, hmiddle]
      exact ⟨resource, path, _, hlegible resource rfl, rfl, ⟨layout, hlayout, rfl⟩, houtputs,
        hplace ▸ hfile⟩

/-- A document that is written is a JSON text exactly when its tree has finite numbers only. -/
theorem DocumentWritten.isDocument_iff {after : Progress} {left : Site} {tree : Json}
    {path : String} {cs : List Char}
    (h : DocumentWritten site before after left tree path cs) (htree : tree.Legible) :
    Json.IsDocument cs ↔ tree.isFinite = true := by
  obtain ⟨⟨layout, -, rfl⟩, -⟩ := h
  exact Json.isDocument_write_iff layout htree (Json.isGap_singleton rfl)

/-- An export of any site, under any name, format and indentation, that succeeds has decoded a
resource and written one document of it. The document is UTF-8, it is a JSON text if and only if all
real numbers of the resource are finite, and it is read back as the tree of the resource. -/
theorem produce_isDocument_iff_isFinite (hroot : site.sink.root.Normal)
    (hformat : format ≠ .luaChunk)
    (h : (((produce codecs normalize naming (.structured format) identifier).run.run before).run
      site).1.1 = .ok ()) :
    ∃ resource path data cs,
      (((decodeEntry format (normalize identifier)).run.run before).run site).1.1 =
        .ok resource ∧
      (((produce codecs normalize naming (.structured format) identifier).run.run before).run
        site).1.2.outputs = before.outputs ++ [⟨.structured, path, data⟩] ∧
      (((produce codecs normalize naming (.structured format) identifier).run.run before).run
        site).2.disk.file? (site.sink.place path) = some data ∧
      Text.Utf8.decode data = .ok cs ∧
      (Json.IsDocument cs ↔ resource.document.isFinite = true) ∧
      Json.readList cs = .ok resource.document.sorted := by
  obtain ⟨resource, path, cs, hlegible, hdecode, hwritten⟩ :=
    exists_documentWritten hroot hformat h
  have hiff := hwritten.isDocument_iff hlegible
  obtain ⟨⟨layout, -, rfl⟩, houtputs, hfile⟩ := hwritten
  exact ⟨resource, path, _, _, hdecode, houtputs, hfile, Text.Utf8.decode_encode _, hiff,
    Json.readList_write layout hlegible (Json.isGap_singleton rfl)⟩

end Exports

/-- A folder with two altitude maps: one without cells, and one of a single cell all of whose
corners are infinitely high. -/
def altitudeMaps : Disk :=
  let header := [0x47, 0x52, 0x41, 0x54, 1, 2]
  let infinity := [0, 0, 0x80, 0x7F]
  (Disk.empty.putFile ["in", "flat.gat"] (header ++ List.replicate 8 0)).putFile
    ["in", "steep.gat"] (header ++ [1, 0, 0, 0, 1, 0, 0, 0] ++
      (List.replicate 4 infinity).flatten ++ List.replicate 4 0)

/-- The altitude maps as an opened archive, and where an export of it goes. -/
def altitudeSite : Site where
  archive := .folder ⟨⟨[("flat.gat", ⟨"/in/flat.gat", 0⟩), ("steep.gat", ⟨"/in/steep.gat", 0⟩)]⟩⟩
  disk := altitudeMaps
  sink := { root := ⟨"/", ["out"]⟩ }
  console := {}

theorem produce_flat : (((produce .plain id {} (.structured .altitude) "flat.gat").run.run {}).run
    altitudeSite).1.1 = .ok () := by
  rfl

theorem produce_isDocument_iff_isFinite_of_flat :
    altitudeSite.sink.root.Normal ∧ Format.altitude ≠ .luaChunk ∧
      ∃ resource path data cs,
        (((decodeEntry .altitude "flat.gat").run.run {}).run altitudeSite).1.1 = .ok resource ∧
        (((produce .plain id {} (.structured .altitude) "flat.gat").run.run {}).run
          altitudeSite).1.2.outputs = [⟨.structured, path, data⟩] ∧
        (((produce .plain id {} (.structured .altitude) "flat.gat").run.run {}).run
          altitudeSite).2.disk.file? (altitudeSite.sink.place path) = some data ∧
        Text.Utf8.decode data = .ok cs ∧
        (Json.IsDocument cs ↔ resource.document.isFinite = true) ∧
        Json.readList cs = .ok resource.document.sorted := by
  have hroot : altitudeSite.sink.root.Normal := by decide
  have hformat : Format.altitude ≠ .luaChunk := by simp
  obtain ⟨resource, path, data, cs, hdecode, houtputs, hrest⟩ :=
    produce_isDocument_iff_isFinite hroot hformat produce_flat
  exact ⟨hroot, hformat, resource, path, data, cs, hdecode, houtputs, hrest⟩

theorem open_altitudeMaps :
    FolderArchive.open {} altitudeMaps ⟨"/", []⟩ "in" 0 =
      (⟨⟨[("flat.gat", ⟨"/in/flat.gat", 0⟩), ("steep.gat", ⟨"/in/steep.gat", 0⟩)]⟩⟩, [],
        true) := by
  have hfolder : altitudeMaps.isFolder [] "in" = true := by decide
  have hroot : AbsolutePath.ofText ⟨"/", []⟩ "in" = ⟨"/", ["in"]⟩ := by decide
  have hfiles : ∃ flat steep,
      altitudeMaps.filesBelow ["in"] = [(["flat.gat"], flat), (["steep.gat"], steep)] :=
    ⟨_, _, List.mergeSort_of_pairwise (by decide)⟩
  obtain ⟨flat, steep, hfiles⟩ := hfiles
  have hlisted : FolderArchive.listed altitudeMaps ⟨"/", ["in"]⟩ =
      [(["flat.gat"], flat), (["steep.gat"], steep)] := by
    rw [FolderArchive.listed, hfiles]
    rfl
  have hflat : FolderArchive.normalize (Text.join "/" ["flat.gat"]) = "flat.gat" := by decide
  have hsteep : FolderArchive.normalize (Text.join "/" ["steep.gat"]) = "steep.gat" := by decide
  have hflatText : Path.join (AbsolutePath.mk "/" ["in"]).text (Text.join "/" ["flat.gat"]) =
      "/in/flat.gat" := by
    decide
  have hsteepText : Path.join (AbsolutePath.mk "/" ["in"]).text (Text.join "/" ["steep.gat"]) =
      "/in/steep.gat" := by
    decide
  simp only [FolderArchive.open, hfolder, hroot, hlisted, List.foldl_cons, List.foldl_nil, hflat,
    hsteep, hflatText, hsteepText]
  rfl

theorem opened_altitudeMaps :
    Archive.Opened altitudeMaps ⟨"/", []⟩ ["in"] 0 altitudeSite.archive := by
  have hprovider : Archive.commonProvider altitudeMaps [] ["in"] = .ok .folder := by
    decide
  refine .opened ?_
  simp only [Archive.openAll, hprovider, Archive.openSources, Archive.empty, Archive.openSource]
  rw [show ((0 : Nat) : Int) = 0 from rfl, open_altitudeMaps]
  rfl

theorem produce_steep : (((produce .plain id {} (.structured .altitude) "steep.gat").run.run {}).run
    altitudeSite).1.1 = .ok () := by
  rfl

theorem decode_steep : (((decodeEntry .altitude "steep.gat").run.run {}).run
    altitudeSite).1.1 = .ok (.altitude
      ⟨⟨1, 2⟩, 1, 1, .infinity false, .infinity false, ⟨[("walkable", 1)]⟩⟩) := by
  rfl

/-- An infinite altitude is written by a name that is no part of the grammar. -/
theorem exists_not_isDocument_of_steep :
    Archive.Opened altitudeMaps ⟨"/", []⟩ ["in"] 0 altitudeSite.archive ∧
      (((produce .plain id {} (.structured .altitude) "steep.gat").run.run {}).run
        altitudeSite).1.1 = .ok () ∧
      ∃ path cs,
        (((produce .plain id {} (.structured .altitude) "steep.gat").run.run {}).run
          altitudeSite).1.2.outputs = [⟨.structured, path, Text.Utf8.encode cs⟩] ∧
        ¬ Json.IsDocument cs := by
  obtain ⟨resource, path, cs, hlegible, hdecode, hwritten⟩ :=
    exists_documentWritten (show altitudeSite.sink.root.Normal by decide) (by simp) produce_steep
  rw [id, decode_steep] at hdecode
  cases hdecode
  refine ⟨opened_altitudeMaps, produce_steep, path, cs, hwritten.2.1, ?_⟩
  rw [hwritten.isDocument_iff hlegible]
  decide

end Step

end ArchiveExport
