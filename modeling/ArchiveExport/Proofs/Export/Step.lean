import ArchiveExport.Export.Dispatch
import ArchiveExport.Proofs.Export.Writes
import ArchiveExport.Proofs.Resource.SpriteImages
import Mathlib.Data.List.Forall2
import Mathlib.Data.List.Nodup

/-!
# What a step writes

A step notes exactly the outputs that it writes, whether or not it fails, and what it does neither
depends on nor changes what was noted before. Conditions on the result and on the outputs of a step
follow from those of its parts.
-/

namespace ArchiveExport.Step

variable {α β : Type} {step : Step α} {next : α → Step β}
  {post : Except Cause α → List Output → Prop} {goal : Except Cause β → List Output → Prop}

/-- Wherever a step is done, and whatever is noted already, it notes the outputs that it writes;
the condition holds of its result and these outputs. -/
def Meets (step : Step α) (post : Except Cause α → List Output → Prop) : Prop :=
  ∀ site, ∃ result outputs left, post result outputs ∧ ∀ p : Progress,
    (step.run.run p).run site = ((result, { p with outputs := p.outputs ++ outputs }), left) ∧
      (step.run.run p).writes site = outputs.map fun o => (o.path, o.data)

/-- A step that writes nothing. -/
def Quiet (step : Step α) : Prop := step.Meets fun _ outputs => outputs = []

/-! ### Parts of steps -/

theorem Meets.mono {post' : Except Cause α → List Output → Prop} (h : step.Meets post)
    (himp : ∀ result outputs, post result outputs → post' result outputs) : step.Meets post' := by
  intro site
  obtain ⟨result, outputs, left, hpost, hrun⟩ := h site
  exact ⟨result, outputs, left, himp result outputs hpost, hrun⟩

theorem meets_pure {value : α} (h : post (.ok value) []) : Meets (pure value) post := by
  intro site
  refine ⟨.ok value, [], site, h, fun p => ?_⟩
  rw [List.append_nil]
  exact ⟨rfl, rfl⟩

theorem meets_throw {cause : Cause} (h : post (.error cause) []) :
    Meets (throw cause : Step α) post := by
  intro site
  refine ⟨.error cause, [], site, h, fun p => ?_⟩
  rw [List.append_nil]
  exact ⟨rfl, rfl⟩

/-- Where the first part fails, the whole step does; else it goes on with the value. -/
theorem run_bind (step : Step α) (next : α → Step β) (p : Progress) :
    (step >>= next).run.run p = (step.run.run p).bind fun (result, p) =>
      match result with
      | .ok value => (next value).run.run p
      | .error cause => .done (.error cause, p) := by
  rw [ExceptT.run_bind, StateT.run_bind]
  refine congrArg (Job.bind (step.run.run p)) (funext fun (result, p) => ?_)
  cases result <;> rfl

theorem Meets.bind (h : step.Meets post)
    (herror : ∀ cause outputs, post (.error cause) outputs → goal (.error cause) outputs)
    (hnext : ∀ value outputs, post (.ok value) outputs →
      (next value).Meets fun result others => goal result (outputs ++ others)) :
    (step >>= next).Meets goal := by
  intro site
  obtain ⟨result, outputs, left, hpost, hrun⟩ := h site
  cases result with
  | error cause =>
      refine ⟨.error cause, outputs, left, herror cause outputs hpost, fun p => ?_⟩
      obtain ⟨hend, hwrites⟩ := hrun p
      rw [run_bind, Job.run_bind, Job.writes_bind, hend, hwrites]
      exact ⟨rfl, List.append_nil _⟩
  | ok value =>
      obtain ⟨result, others, last, hgoal, hrest⟩ := hnext value outputs hpost left
      refine ⟨result, outputs ++ others, last, hgoal, fun p => ?_⟩
      obtain ⟨hend, hwrites⟩ := hrun p
      obtain ⟨hend', hwrites'⟩ := hrest { p with outputs := p.outputs ++ outputs }
      rw [run_bind, Job.run_bind, Job.writes_bind, hend, hwrites, List.map_append,
        ← List.append_assoc]
      exact ⟨hend', congrArg _ hwrites'⟩

/-- What is written behind a quiet part is all that is written. -/
theorem Quiet.bind (h : step.Quiet) (herror : ∀ cause, goal (.error cause) [])
    (hnext : ∀ value, (next value).Meets goal) : (step >>= next).Meets goal := by
  refine Meets.bind h ?_ ?_
  · rintro cause outputs rfl
    exact herror cause
  · rintro value outputs rfl
    exact hnext value

theorem quiet_pure (value : α) : Quiet (pure value) := meets_pure rfl

theorem Quiet.bind_quiet (h : step.Quiet) (hnext : ∀ value, (next value).Quiet) :
    (step >>= next).Quiet :=
  h.bind (fun _ => rfl) hnext

theorem quiet_throw (cause : Cause) : Quiet (throw cause : Step α) := meets_throw rfl

theorem quiet_ite {condition : Prop} [Decidable condition] {other : Step α} (h : step.Quiet)
    (hother : other.Quiet) : Quiet (if condition then step else other) := by
  split
  · exact h
  · exact hother

theorem quiet_get {ε : Type} (cause : ε → Cause) (result : Except ε α) :
    Quiet (get cause result) := by
  cases result with
  | error fault => exact meets_throw rfl
  | ok value => exact meets_pure rfl

/-- A single access that is no write. -/
theorem quiet_job {j : Job α} (h : ∀ site, j.writes site = []) : Quiet (job j) := by
  intro site
  refine ⟨.ok (j.run site).1, [], (j.run site).2, rfl, fun p => ?_⟩
  have hrun : (job j).run.run p = j.bind fun value => .done (.ok value, p) :=
    Job.bind_assoc j _ _
  rw [hrun, Job.run_bind, Job.writes_bind, h, List.append_nil]
  exact ⟨rfl, rfl⟩

theorem quiet_forM {items : List α} {f : α → Step Unit} (h : ∀ item ∈ items, (f item).Quiet) :
    (items.forM f).Quiet := by
  induction items with
  | nil => exact quiet_pure ()
  | cons item items ih =>
      refine (h item List.mem_cons_self).bind_quiet fun _ => ?_
      exact ih fun other hother => h other (List.mem_cons_of_mem _ hother)

/-! ### Reading and decoding -/

theorem run_read (key : String) (p : Progress) :
    (read key).run.run p = .read key fun answer =>
      match answer with
      | .ok data => .done (.ok data, p)
      | .error fault => .done (.error (.archive fault), p) := by
  rw [read, run_bind]
  refine congrArg (Job.read key) (funext fun answer => ?_)
  cases answer <;> rfl

theorem quiet_read (key : String) : (read key).Quiet :=
  (quiet_job fun _ => rfl).bind_quiet fun _ => quiet_get _ _

theorem quiet_contains (key : String) : (contains key).Quiet :=
  (quiet_job fun _ => rfl).bind_quiet fun _ => quiet_get _ _

theorem quiet_warn (warnings : List Sprite.Warning) : (warn warnings).Quiet :=
  quiet_forM fun _ _ => quiet_job fun _ => rfl

theorem quiet_decode (format : Format) (key : String) : (decode format key).Quiet :=
  (quiet_read key).bind_quiet fun _ => (quiet_warn _).bind_quiet fun _ => quiet_get _ _

theorem quiet_decodeSprite (key : String) : (decodeSprite key).Quiet :=
  (quiet_read key).bind_quiet fun _ => (quiet_warn _).bind_quiet fun _ => quiet_get _ _

theorem quiet_decodeBundle (stem : String) : (decodeBundle stem).Quiet := by
  refine (quiet_contains _).bind_quiet fun hasSprite => ?_
  refine (quiet_contains _).bind_quiet fun hasAnimation => ?_
  have hrest : Quiet do
      let sprite ← decodeSprite (stem ++ ".spr")
      let data ← read (stem ++ ".act")
      let animation ←
        get (fun fault => .resource ⟨.animation fault, stem ++ ".act"⟩) (Animation.decode data)
      return Resource.bundle stem sprite animation :=
    (quiet_decodeSprite _).bind_quiet fun _ => (quiet_read _).bind_quiet fun _ =>
      (quiet_get _ _).bind_quiet fun _ => quiet_pure _
  exact quiet_ite ((quiet_throw _).bind_quiet fun _ => hrest) hrest

theorem quiet_decodeEntry (format : Format) (key : String) : (decodeEntry format key).Quiet := by
  unfold decodeEntry
  split
  · exact quiet_decodeBundle key
  · exact quiet_decode format key

/-! ### Writing -/

theorem run_emit (kind : OutputKind) (path : String) (data : Bytes) (p : Progress) :
    (emit kind path data).run.run p = .write path data fun answer =>
      match answer with
      | .ok _ => .done (.ok (), { p with outputs := p.outputs ++ [⟨kind, path, data⟩] })
      | .error fault => .done (.error (.sink fault), p) := by
  rw [emit, run_bind]
  refine congrArg (Job.write path data) (funext fun answer => ?_)
  cases answer <;> rfl

/-- An output is noted exactly if it is written. -/
theorem meets_emit {kind : OutputKind} {path : String} {data : Bytes}
    {post : Except Cause Unit → List Output → Prop}
    (herror : ∀ fault, post (.error (.sink fault)) []) (hok : post (.ok ()) [⟨kind, path, data⟩]) :
    (emit kind path data).Meets post := by
  intro site
  rcases hwrite : site.sink.write site.disk path data with ⟨sink, disk, answer⟩
  cases answer with
  | error fault =>
      refine ⟨.error (.sink fault), [], { site with sink, disk }, herror fault, fun p => ?_⟩
      rw [run_emit, Job.run, Job.writes, hwrite, List.append_nil]
      exact ⟨rfl, rfl⟩
  | ok target =>
      refine ⟨.ok (), [⟨kind, path, data⟩], { site with sink, disk }, hok, fun p => ?_⟩
      rw [run_emit, Job.run, Job.writes, hwrite]
      exact ⟨rfl, rfl⟩

/-- An output under a path that has to be found first. -/
theorem meets_emitUnder (kind : OutputKind) (path? : Except Setting.Misuse String) (data : Bytes) :
    (do emit kind (← get .setting path?) data : Step Unit).Meets fun result outputs =>
      (outputs = [] ∧ result ≠ .ok ()) ∨
        ∃ path, path? = .ok path ∧ outputs = [⟨kind, path, data⟩] := by
  cases path? with
  | error misuse => exact meets_throw (Or.inl ⟨rfl, by simp⟩)
  | ok path => exact meets_emit (fun _ => Or.inl ⟨rfl, by simp⟩) (Or.inr ⟨path, rfl, rfl⟩)

/-- What the text or document of an identifier is called. -/
def documentPath (naming : Naming) (handler : Handler) (identifier : String) :
    Except Setting.Misuse String :=
  match handler with
  | .text => Setting.appendTo identifier naming.textSuffix
  | _ => Setting.appendTo identifier naming.structuredSuffix

/-- A handler writes at most one output. -/
theorem meets_produce (codecs : Codecs) (normalize : String → String) (naming : Naming)
    (handler : Handler) (identifier : String) :
    (produce codecs normalize naming handler identifier).Meets fun _ outputs =>
      outputs = [] ∨ ∃ path data, handler ≠ .unsupported ∧
        documentPath naming handler identifier = .ok path ∧
        outputs = [⟨Dispatcher.kindOf handler, path, data⟩] := by
  cases handler with
  | unsupported => exact meets_pure (Or.inl rfl)
  | text =>
      have hwritten : ∀ data, (do
          emit .text (← get .setting (documentPath naming .text identifier)) data :
            Step Unit).Meets fun _ outputs => outputs = [] ∨ ∃ path data,
              Handler.text ≠ .unsupported ∧ documentPath naming .text identifier = .ok path ∧
              outputs = [⟨.text, path, data⟩] := by
        intro data
        refine (meets_emitUnder .text _ data).mono ?_
        rintro result outputs (⟨hnone, -⟩ | ⟨path, hpath, hone⟩)
        · exact Or.inl hnone
        · exact Or.inr ⟨path, data, by simp, hpath, hone⟩
      refine (quiet_read identifier).bind (fun _ => Or.inl rfl) fun data => ?_
      cases naming.textEncoding with
      | text name => exact (quiet_get _ _).bind (fun _ => Or.inl rfl) fun text => hwritten _
      | _ => exact (quiet_throw _).bind (fun _ => Or.inl rfl) fun encoding =>
          (quiet_get _ _).bind (fun _ => Or.inl rfl) fun text => hwritten _
  | structured format =>
      refine (quiet_decodeEntry _ _).bind (fun _ => Or.inl rfl) fun resource => ?_
      refine (quiet_get _ _).bind (fun _ => Or.inl rfl) fun document => ?_
      refine (meets_emitUnder .structured (documentPath naming (.structured format) identifier)
        document).mono ?_
      rintro result outputs (⟨hnone, -⟩ | ⟨path, hpath, hone⟩)
      · exact Or.inl hnone
      · exact Or.inr ⟨path, document, by simp, hpath, hone⟩

/-- The images of an identifier have different numbers, or there is a single one without. -/
structure Numbered (frames : List (Option Nat)) : Prop where
  nodup : frames.Nodup
  single : none ∈ frames → frames = [none]

theorem Numbered.sublist {frames fewer : List (Option Nat)} (h : Numbered frames)
    (hfewer : fewer.Sublist frames) : Numbered fewer where
  nodup := h.nodup.sublist hfewer
  single := by
    intro hnone
    have hframes := h.single (hfewer.subset hnone)
    rw [hframes] at hfewer
    rcases List.sublist_singleton.mp hfewer with rfl | rfl
    · simp at hnone
    · rfl

/-- The numbers of the frames of a sprite with so many of them. -/
def frameNumbers (count : Nat) : List (Option Nat) :=
  (List.range count).map fun index => if count = 1 then none else some index

theorem numbered_frameNumbers (count : Nat) : Numbered (frameNumbers count) := by
  by_cases hone : count = 1
  · subst hone
    exact ⟨by simp [frameNumbers], fun _ => rfl⟩
  · constructor
    · simp only [frameNumbers, if_neg hone]
      exact List.nodup_range.map fun a b => Option.some.inj
    · simp [frameNumbers, hone]

/-- The images of a sprite have the numbers of their frames. -/
theorem sublist_frameNumbers (s : Sprite) :
    (s.images.map Prod.fst).Sublist (frameNumbers s.frames.length) := by
  have hdrawn : s.images.map Prod.fst =
      ((List.range s.frames.length).filter fun i : Nat => (s.frameImage? i).2.isSome).map
        fun i => if s.frames.length = 1 then none else some i := by
    rw [Sprite.images, List.map_filterMap, ← List.filterMap_eq_map, List.filterMap_filter]
    refine List.filterMap_congr fun i _ => ?_
    cases (s.frameImage? i).2 <;> rfl
  rw [hdrawn]
  exact List.filter_sublist.map _

theorem numbered_images (s : Sprite) : Numbered (s.images.map Prod.fst) :=
  (numbered_frameNumbers _).sublist (sublist_frameNumbers s)

theorem warn_append (first second : List Sprite.Warning) :
    warn (first ++ second) = (do warn first; warn second) :=
  List.forM_append

/-- Parts of a step that only warn can be done after all their warnings. -/
theorem mapM_warn (items : List α) (warnings : α → List Sprite.Warning) (value : α → β) :
    items.mapM (fun item => do warn (warnings item); return value item) =
      (do warn (items.flatMap warnings); return items.map value : Step (List β)) := by
  induction items with
  | nil =>
      rw [List.mapM_nil]
      rfl
  | cons item items ih =>
      rw [List.mapM_cons, ih, List.flatMap_cons, warn_append]
      simp only [bind_assoc, pure_bind, List.map_cons]

/-- A frame stands in the list under its number. -/
theorem map_zipIdx_frames (s : Sprite) :
    s.frames.zipIdx.map (fun (frame, index) => (s.image? frame, index)) =
      (List.range s.frames.length).map fun index : Nat => (s.frameImage? index, index) := by
  refine List.ext_getElem (by simp) fun i _ hi => ?_
  simp only [List.length_map, List.length_range] at hi
  simp [Sprite.frameImage?, Sprite.frame?_natCast, List.getElem?_eq_getElem hi]

/-- Drawing a sprite warns about its frames, and gives its images. -/
theorem drawFrames_eq (s : Sprite) : drawFrames s = (do warn s.drawWarnings; return s.images) := by
  rw [drawFrames, mapM_warn s.frames.zipIdx (fun item => (s.image? item.1).1) fun item =>
    (s.image? item.1).2.map fun image =>
      (if s.frames.length = 1 then none else some item.2, image)]
  have hwarnings := congrArg (List.flatMap fun item => item.1.1) (map_zipIdx_frames s)
  have himages := congrArg (List.filterMap fun item => item.1.2.map fun image =>
    (if s.frames.length = 1 then none else some item.2, image)) (map_zipIdx_frames s)
  simp only [List.flatMap_map, List.filterMap_map] at hwarnings himages
  rw [bind_assoc, hwarnings, Sprite.drawWarnings, Sprite.images]
  simp only [pure_bind, List.filterMap_map]
  exact congrArg _ (funext fun _ => congrArg _ himages)

theorem meets_drawFrames (s : Sprite) :
    (drawFrames s).Meets fun result outputs => outputs = [] ∧
      ∀ images, result = .ok images → Numbered (images.map Prod.fst) := by
  rw [drawFrames_eq]
  refine (quiet_warn _).bind (fun _ => ⟨rfl, by simp⟩) fun _ => ?_
  refine meets_pure ⟨rfl, fun images himages => ?_⟩
  rw [← Except.ok.inj himages]
  exact numbered_images s

/-- The images of an identifier are numbered. -/
theorem meets_render (codecs : Codecs) (renderer : Renderer) (identifier : String) :
    (render codecs renderer identifier).Meets fun result outputs => outputs = [] ∧
      ∀ images, result = .ok images → Numbered (images.map Prod.fst) := by
  have hsingle : ∀ image : Image, Numbered ([(none, image)].map (Prod.fst (β := Image))) := by
    exact fun _ => ⟨by simp, by simp⟩
  cases renderer with
  | image =>
      refine (quiet_read identifier).bind (fun _ => ⟨rfl, by simp⟩) fun data => ?_
      refine (quiet_get _ _).bind (fun _ => ⟨rfl, by simp⟩) fun image => ?_
      refine meets_pure ⟨rfl, fun images himages => ?_⟩
      rw [← Except.ok.inj himages]
      exact hsingle image
  | spriteFrames =>
      exact (quiet_decodeSprite identifier).bind (fun _ => ⟨rfl, by simp⟩) meets_drawFrames
  | bundleFrames =>
      refine (quiet_contains _).bind (fun _ => ⟨rfl, by simp⟩) fun found => ?_
      have hfound : Meets (do
          drawFrames (← decodeSprite (identifier ++ ".spr"))) fun result outputs =>
            outputs = [] ∧ ∀ images, result = .ok images → Numbered (images.map Prod.fst) :=
        (quiet_decodeSprite _).bind (fun _ => ⟨rfl, by simp⟩) meets_drawFrames
      cases found with
      | true => exact hfound
      | false => exact (quiet_throw _).bind (fun _ => ⟨rfl, by simp⟩) fun _ => hfound
  | palette =>
      refine (quiet_read identifier).bind (fun _ => ⟨rfl, by simp⟩) fun data => ?_
      refine (quiet_get _ _).bind (fun _ => ⟨rfl, by simp⟩) fun palette => ?_
      refine meets_pure ⟨rfl, fun images himages => ?_⟩
      rw [← Except.ok.inj himages]
      exact hsingle _

/-- Images are written in turn up to the first that cannot be. -/
theorem meets_forM_emit (codecs : Codecs) (naming : Naming) (identifier : String)
    (images : List (Option Nat × Image)) :
    (images.forM fun (frame, image) => do
      let path ← get .setting (naming.texturePath identifier frame)
      emit .texture path (codecs.ofImage image) : Step Unit).Meets fun _ outputs =>
        ∃ written, written <+: images.map Prod.fst ∧
          List.Forall₂ (fun frame o => naming.texturePath identifier frame = .ok o.path)
            written outputs := by
  induction images with
  | nil => exact meets_pure ⟨[], List.nil_prefix, .nil⟩
  | cons image images ih =>
      refine (meets_emitUnder .texture (naming.texturePath identifier image.1)
        (codecs.ofImage image.2)).bind ?_ ?_
      · rintro cause outputs (⟨rfl, -⟩ | ⟨path, hpath, rfl⟩)
        · exact ⟨[], List.nil_prefix, .nil⟩
        · exact ⟨[image.1], ⟨images.map Prod.fst, rfl⟩, .cons hpath .nil⟩
      · rintro value outputs (⟨rfl, hfailed⟩ | ⟨path, hpath, rfl⟩)
        · exact absurd rfl hfailed
        · refine ih.mono ?_
          rintro result others ⟨written, hwritten, hothers⟩
          exact ⟨image.1 :: written, List.cons_prefix_cons.mpr ⟨rfl, hwritten⟩,
            .cons hpath hothers⟩

/-- The images of an identifier are written under its numbered paths. -/
theorem meets_texture (codecs : Codecs) (naming : Naming) (renderer : Renderer)
    (identifier : String) :
    (texture codecs naming renderer identifier).Meets fun _ outputs =>
      ∃ frames, Numbered frames ∧
        List.Forall₂ (fun frame o => naming.texturePath identifier frame = .ok o.path)
          frames outputs := by
  refine (meets_render codecs renderer identifier).bind ?_ ?_
  · rintro cause outputs ⟨rfl, -⟩
    exact ⟨[], ⟨.nil, by simp⟩, .nil⟩
  · rintro images outputs ⟨rfl, hnumbered⟩
    refine (meets_forM_emit codecs naming identifier images).mono ?_
    rintro result outputs ⟨written, hwritten, houtputs⟩
    exact ⟨written, (hnumbered images rfl).sublist hwritten.sublist, houtputs⟩

/-- A member is written under its own key or not at all. -/
theorem meets_copy (member : String) :
    (copy member).Meets fun _ outputs =>
      outputs = [] ∨ ∃ data, outputs = [⟨.raw, member, data⟩] :=
  (quiet_read member).bind (fun _ => Or.inl rfl) fun data =>
    meets_emit (fun _ => Or.inl rfl) (Or.inr ⟨data, rfl⟩)

/-- A member is written as it is where it can be read and written. -/
theorem writes_copy (member : String) (site : Site) (p : Progress) :
    ((copy member).run.run p).writes site =
      match (site.archive.read site.disk member).1 with
      | .ok data =>
        if (site.sink.write site.disk member data).2.2.isOk then [(member, data)] else []
      | .error _ => [] := by
  rw [copy, run_bind, run_read, Job.bind, Job.writes]
  rcases site.archive.read site.disk member with ⟨_ | data, archive⟩
  · rfl
  · simp only [Job.bind, run_emit, Job.writes]
    cases (site.sink.write site.disk member data).2.2 with
    | error fault => rfl
    | ok target => rfl

end ArchiveExport.Step
