import ArchiveExport.Proofs.Export.Step

/-!
# What becomes of an entry

Every step of an entry's export is tried, each at the site that the ones before it have left. The
outcome lists what was written, in the order of the steps; it has failed where a step did.
-/

namespace ArchiveExport

/-- How a step went: its result, and what it wrote. -/
structure Trial where
  kind : OutputKind
  result : Except Cause Unit
  writes : List (String × Bytes)

namespace Trial

/-- Whether the step failed. -/
def isFailed (t : Trial) : Bool := !t.result.isOk

/-- What is noted of a failure. -/
def failures (t : Trial) : List Failure :=
  match t.result with
  | .ok () => []
  | .error cause => [⟨t.kind, cause⟩]

theorem failures_eq_nil_iff (t : Trial) : t.failures = [] ↔ t.isFailed = false := by
  rw [failures, isFailed]
  cases t.result with
  | error cause => simp [Except.isOk, Except.toBool]
  | ok value => simp [Except.isOk, Except.toBool]

end Trial

namespace Step

/-- A step tried at a site. -/
def trial (kind : OutputKind) (step : Step Unit) (site : Site) : Trial :=
  ⟨kind, ((step.run.run {}).run site).1.1, (step.run.run {}).writes site⟩

/-- The site that a step leaves when it is tried. -/
def siteAfter (debug : Bool) (kind : OutputKind) (step : Step Unit) (site : Site) : Site :=
  (((attempt debug kind step).run {}).run site).2

/-- Each step tried at the site that the steps before it have left. -/
def trials (debug : Bool) : List (OutputKind × Step Unit) → Site → List Trial
  | [], _ => []
  | (kind, step) :: steps, site =>
    trial kind step site :: trials debug steps (siteAfter debug kind step site)

/-- The site that all steps leave. -/
def siteBehind (debug : Bool) : List (OutputKind × Step Unit) → Site → Site
  | [], site => site
  | (kind, step) :: steps, site => siteBehind debug steps (siteAfter debug kind step site)

theorem trials_append (debug : Bool) (steps later : List (OutputKind × Step Unit)) (site : Site) :
    trials debug (steps ++ later) site =
      trials debug steps site ++ trials debug later (siteBehind debug steps site) := by
  induction steps generalizing site with
  | nil => rfl
  | cons item steps ih => exact congrArg (_ :: ·) (ih _)

theorem map_kind_trials (debug : Bool) (steps : List (OutputKind × Step Unit)) (site : Site) :
    (trials debug steps site).map Trial.kind = steps.map Prod.fst := by
  induction steps generalizing site with
  | nil => rfl
  | cons item steps ih => exact congrArg (_ :: ·) (ih _)

variable {step : Step Unit} {post : Except Cause Unit → List Output → Prop}
  {steps : List (OutputKind × Step Unit)} {debug : Bool}

theorem run_attempt (debug : Bool) (kind : OutputKind) (step : Step Unit) (p : Progress) :
    (attempt debug kind step).run p = (step.run.run p).bind fun (result, p) =>
      match result with
      | .ok () => .done ((), p)
      | .error cause =>
        if debug then
          .print .error (Console.traceOf cause.message)
            (.done ((), { p with failures := p.failures ++ [⟨kind, cause⟩] }))
        else .done ((), { p with failures := p.failures ++ [⟨kind, cause⟩] }) := by
  rw [attempt, StateT.run_bind]
  refine congrArg (Job.bind (step.run.run p)) (funext fun (result, p) => ?_)
  rcases result with cause | ⟨⟩
  · cases debug <;> rfl
  · rfl

/-- A step that is tried adds its outputs, and its failure if it fails. -/
theorem Meets.attempt (h : Meets step post) (debug : Bool) (kind : OutputKind) (site : Site) :
    ∃ outputs, post (trial kind step site).result outputs ∧
      (trial kind step site).writes = outputs.map (fun o => (o.path, o.data)) ∧
      ∀ p : Progress,
        ((Step.attempt debug kind step).run p).run site =
            (((), ⟨p.outputs ++ outputs, p.failures ++ (trial kind step site).failures⟩),
              siteAfter debug kind step site) ∧
          ((Step.attempt debug kind step).run p).writes site =
            (trial kind step site).writes := by
  obtain ⟨result, outputs, left, hpost, hrun⟩ := h site
  obtain ⟨hend, hwrites⟩ := hrun {}
  have htrial : trial kind step site = ⟨kind, result, outputs.map fun o => (o.path, o.data)⟩ := by
    rw [trial, hend, hwrites]
  refine ⟨outputs, htrial ▸ hpost, hwrites, fun p => ?_⟩
  obtain ⟨hend', hwrites'⟩ := hrun p
  rw [siteAfter, run_attempt, run_attempt, Job.run_bind, Job.run_bind, Job.writes_bind, hend,
    hend', hwrites', htrial]
  rcases result with cause | ⟨⟩
  · cases debug
    · simp [Job.run, Job.writes, Trial.failures]
    · simp [Job.run, Job.writes, Trial.failures]
  · simp [Job.run, Job.writes, Trial.failures]

/-- All steps are tried, and what they write and how they fail is noted in their order. -/
theorem run_runSteps (h : ∀ item ∈ steps, ∃ post, Meets item.2 post) (debug : Bool) (site : Site) :
    ∃ outputs, outputs.map (fun o => (o.path, o.data)) =
        (trials debug steps site).flatMap Trial.writes ∧
      ∀ p : Progress,
        ((Dispatcher.runSteps debug steps).run p).run site =
            (((), ⟨p.outputs ++ outputs,
              p.failures ++ (trials debug steps site).flatMap Trial.failures⟩),
              siteBehind debug steps site) ∧
          ((Dispatcher.runSteps debug steps).run p).writes site =
            (trials debug steps site).flatMap Trial.writes := by
  induction steps generalizing site with
  | nil =>
      refine ⟨[], rfl, fun p => ⟨?_, rfl⟩⟩
      simp only [trials, List.flatMap_nil, List.append_nil]
      rfl
  | cons item steps ih =>
      obtain ⟨kind, step⟩ := item
      obtain ⟨post, hstep⟩ := h (kind, step) List.mem_cons_self
      obtain ⟨outputs, -, houtputs, hrun⟩ := hstep.attempt debug kind site
      obtain ⟨others, hothers, hrest⟩ :=
        ih (fun other hother => h other (List.mem_cons_of_mem _ hother))
          (siteAfter debug kind step site)
      refine ⟨outputs ++ others, ?_, fun p => ?_⟩
      · rw [List.map_append, hothers, trials, List.flatMap_cons, houtputs]
      · obtain ⟨hend, hwrites⟩ := hrun p
        obtain ⟨hend', hwrites'⟩ := hrest
          ⟨p.outputs ++ outputs, p.failures ++ (trial kind step site).failures⟩
        have hbind : (Dispatcher.runSteps debug ((kind, step) :: steps)).run p =
            ((Step.attempt debug kind step).run p).bind fun (_, p) =>
              (Dispatcher.runSteps debug steps).run p := rfl
        rw [hbind, Job.run_bind, Job.writes_bind, hend, hwrites]
        simp only [hend', hwrites', trials, siteBehind, List.flatMap_cons, List.append_assoc,
          and_self]

end Step

/-! ### Entries -/

namespace Dispatcher

open Step (Meets trials siteBehind)

variable {d : Dispatcher} {entry : Entry} {mode : Mode}

/-- The step that writes the text or document of an entry, if the mode asks for it. -/
def documentSteps (d : Dispatcher) (entry : Entry) (mode : Mode) : List (OutputKind × Step Unit) :=
  if mode.structured then
    [(kindOf (d.table.handlerFor entry.identifier),
      Step.produce d.codecs d.normalize d.naming (d.table.handlerFor entry.identifier)
        entry.identifier)]
  else []

/-- The step that writes the images of an entry, if there are any and the mode asks for them. -/
def imageSteps (d : Dispatcher) (entry : Entry) (mode : Mode) : List (OutputKind × Step Unit) :=
  match mode.texture, d.table.rendererFor? entry.identifier with
  | true, some renderer => [(.texture, Step.texture d.codecs d.naming renderer entry.identifier)]
  | _, _ => []

/-- The steps that write the members of an entry, if the mode asks for them. -/
def memberSteps (entry : Entry) (mode : Mode) : List (OutputKind × Step Unit) :=
  if mode.raw then entry.members.map fun m => (.raw, Step.copy m) else []

theorem steps_eq (d : Dispatcher) (entry : Entry) (mode : Mode) :
    d.steps entry mode =
      d.documentSteps entry mode ++ d.imageSteps entry mode ++ memberSteps entry mode := rfl

theorem exists_meets_of_mem_steps : ∀ item ∈ d.steps entry mode, ∃ post, Meets item.2 post := by
  intro item hitem
  rw [steps_eq, List.mem_append, List.mem_append] at hitem
  rcases hitem with (hdocument | himages) | hmembers
  · rw [documentSteps] at hdocument
    split at hdocument
    · rw [List.mem_singleton.mp hdocument]
      exact ⟨_, Step.meets_produce _ _ _ _ _⟩
    · simp at hdocument
  · rw [imageSteps] at himages
    split at himages
    · rw [List.mem_singleton.mp himages]
      exact ⟨_, Step.meets_texture _ _ _ _⟩
    · simp at himages
  · rw [memberSteps] at hmembers
    split at hmembers
    · obtain ⟨member, -, rfl⟩ := List.mem_map.mp hmembers
      exact ⟨_, Step.meets_copy member⟩
    · simp at hmembers

/-- Dispatching an entry tries its steps and makes an outcome of what they note. -/
theorem run_dispatch (d : Dispatcher) (entry : Entry) (mode : Mode) (site : Site) :
    ∃ outputs, outputs.map (fun o => (o.path, o.data)) =
        (trials d.debug (d.steps entry mode) site).flatMap Trial.writes ∧
      (d.dispatch entry mode).run site =
        (.ofProgress entry.identifier
          ⟨outputs, (trials d.debug (d.steps entry mode) site).flatMap Trial.failures⟩,
          siteBehind d.debug (d.steps entry mode) site) ∧
      (d.dispatch entry mode).writes site =
        (trials d.debug (d.steps entry mode) site).flatMap Trial.writes := by
  have hsteps : ∀ item ∈ d.steps entry mode, ∃ post, Step.Meets item.2 post :=
    exists_meets_of_mem_steps
  obtain ⟨outputs, houtputs, hrun⟩ := Step.run_runSteps hsteps d.debug site
  obtain ⟨hend, hwrites⟩ := hrun {}
  have hdispatch : d.dispatch entry mode =
      ((runSteps d.debug (d.steps entry mode)).run {}).bind fun (_, progress) =>
        .done (.ofProgress entry.identifier progress) := rfl
  refine ⟨outputs, houtputs, ?_, ?_⟩
  · rw [hdispatch, Job.run_bind, hend]
    rfl
  · rw [hdispatch, Job.writes_bind, hwrites]
    exact List.append_nil _

/-- Writes for an entry: its text or document, its images under their numbered paths, and members
under their own keys, each as far as the mode asks for it. -/
structure Arranged (d : Dispatcher) (entry : Entry) (mode : Mode)
    (document images members : List (String × Bytes)) : Prop where
  document : document = [] ∨ mode.structured = true ∧ ∃ path data,
    d.table.handlerFor entry.identifier ≠ .unsupported ∧
      Step.documentPath d.naming (d.table.handlerFor entry.identifier) entry.identifier =
        .ok path ∧ document = [(path, data)]
  images : images = [] ∨ mode.texture = true ∧ ∃ renderer frames,
    d.table.rendererFor? entry.identifier = some renderer ∧ Step.Numbered frames ∧
      List.Forall₂ (fun frame w => d.naming.texturePath entry.identifier frame = .ok w.1)
        frames images
  members : members = [] ∨ mode.raw = true ∧ (members.map Prod.fst).Sublist entry.members

theorem writes_documentSteps (d : Dispatcher) (entry : Entry) (mode : Mode) (site : Site) :
    let document := (trials d.debug (d.documentSteps entry mode) site).flatMap Trial.writes
    document = [] ∨ mode.structured = true ∧ ∃ path data,
      d.table.handlerFor entry.identifier ≠ .unsupported ∧
        Step.documentPath d.naming (d.table.handlerFor entry.identifier) entry.identifier =
          .ok path ∧ document = [(path, data)] := by
  intro document
  by_cases hmode : mode.structured = true
  · obtain ⟨outputs, hpost, hwrites, -⟩ := (Step.meets_produce d.codecs d.normalize d.naming
      (d.table.handlerFor entry.identifier) entry.identifier).attempt d.debug
        (kindOf (d.table.handlerFor entry.identifier)) site
    have hdocument : document = outputs.map fun o => (o.path, o.data) := by
      simp only [document, documentSteps, if_pos hmode, trials, List.flatMap_cons,
        List.flatMap_nil, List.append_nil, hwrites]
    rcases hpost with rfl | ⟨path, data, hhandler, hpath, rfl⟩
    · exact Or.inl hdocument
    · exact Or.inr ⟨hmode, path, data, hhandler, hpath, hdocument⟩
  · left
    simp only [document, documentSteps, if_neg hmode, trials, List.flatMap_nil]

theorem writes_imageSteps (d : Dispatcher) (entry : Entry) (mode : Mode) (site : Site) :
    let images := (trials d.debug (d.imageSteps entry mode) site).flatMap Trial.writes
    images = [] ∨ mode.texture = true ∧ ∃ renderer frames,
      d.table.rendererFor? entry.identifier = some renderer ∧ Step.Numbered frames ∧
        List.Forall₂ (fun frame w => d.naming.texturePath entry.identifier frame = .ok w.1)
          frames images := by
  intro images
  cases hmode : mode.texture with
  | false =>
      left
      simp only [images, imageSteps, hmode, trials, List.flatMap_nil]
  | true =>
      cases hrenderer : d.table.rendererFor? entry.identifier with
      | none =>
          left
          simp only [images, imageSteps, hmode, hrenderer, trials, List.flatMap_nil]
      | some renderer =>
          obtain ⟨outputs, ⟨frames, hnumbered, hpaths⟩, hwrites, -⟩ :=
            (Step.meets_texture d.codecs d.naming renderer entry.identifier).attempt d.debug .texture
              site
          have himages : images = outputs.map fun o => (o.path, o.data) := by
            simp only [images, imageSteps, hmode, hrenderer, trials, List.flatMap_cons,
              List.flatMap_nil, List.append_nil, hwrites]
          right
          refine ⟨rfl, renderer, frames, rfl, hnumbered, ?_⟩
          rw [himages, List.forall₂_map_right_iff]
          exact hpaths

theorem writes_copies (debug : Bool) (keys : List String) (site : Site) :
    (((trials debug (keys.map fun m => (.raw, Step.copy m)) site).flatMap Trial.writes).map
      Prod.fst).Sublist keys := by
  induction keys generalizing site with
  | nil => exact .slnil
  | cons key keys ih =>
      obtain ⟨outputs, hpost, hwrites, -⟩ := (Step.meets_copy key).attempt debug .raw site
      have hrest := ih (Step.siteAfter debug .raw (Step.copy key) site)
      rw [List.map_cons, trials, List.flatMap_cons, List.map_append, hwrites]
      rcases hpost with rfl | ⟨data, rfl⟩
      · exact hrest.cons key
      · exact hrest.cons_cons key

theorem writes_memberSteps (debug : Bool) (entry : Entry) (mode : Mode) (site : Site) :
    let members := (trials debug (memberSteps entry mode) site).flatMap Trial.writes
    members = [] ∨ mode.raw = true ∧ (members.map Prod.fst).Sublist entry.members := by
  intro members
  by_cases hmode : mode.raw = true
  · right
    refine ⟨hmode, ?_⟩
    simp only [members, memberSteps, if_pos hmode]
    exact writes_copies debug entry.members site
  · left
    simp only [members, memberSteps, if_neg hmode, trials, List.flatMap_nil]

/-- What is written for an entry stands in the order of the steps. -/
theorem exists_arranged (d : Dispatcher) (entry : Entry) (mode : Mode) (site : Site) :
    ∃ document images members,
      (d.dispatch entry mode).writes site = document ++ images ++ members ∧
        d.Arranged entry mode document images members := by
  obtain ⟨-, -, -, hwrites⟩ := d.run_dispatch entry mode site
  refine ⟨_, _, _, ?_, ⟨d.writes_documentSteps entry mode site,
    d.writes_imageSteps entry mode (siteBehind d.debug (d.documentSteps entry mode) site),
    writes_memberSteps d.debug entry mode
      (siteBehind d.debug (d.documentSteps entry mode ++ d.imageSteps entry mode) site)⟩⟩
  rw [hwrites, steps_eq, Step.trials_append, Step.trials_append, List.flatMap_append,
    List.flatMap_append]

theorem steps_of_members_eq {before after : List String} {member : String} (d : Dispatcher)
    (hmode : mode.raw = true) (hmembers : entry.members = before ++ member :: after) :
    d.steps entry mode = d.steps { entry with members := before } mode ++
      (.raw, Step.copy member) :: after.map fun m => (.raw, Step.copy m) := by
  simp only [steps_eq, documentSteps, imageSteps, memberSteps, if_pos hmode, hmembers,
    List.map_append, List.map_cons, List.append_assoc]

/-- What a member adds is written at the site that everything in front of it has left. -/
theorem writes_of_members_eq {before after : List String} {member : String} (d : Dispatcher)
    (site : Site) (hmode : mode.raw = true)
    (hmembers : entry.members = before ++ member :: after) :
    ∃ rest, (d.dispatch entry mode).writes site =
      (d.dispatch { entry with members := before } mode).writes site ++
        ((Step.copy member).run.run {}).writes
          ((d.dispatch { entry with members := before } mode).run site).2 ++ rest := by
  obtain ⟨-, -, -, hwrites⟩ := d.run_dispatch entry mode site
  obtain ⟨outputs, -, hbefore, hwritesBefore⟩ :=
    d.run_dispatch { entry with members := before } mode site
  rw [hwrites, hwritesBefore, hbefore, steps_of_members_eq d hmode hmembers, Step.trials_append,
    List.flatMap_append, trials, List.flatMap_cons, ← List.append_assoc]
  exact ⟨_, rfl⟩

theorem status_ofProgress (identifier : String) (p : Progress) :
    ((Outcome.ofProgress identifier p).status = .failed ↔ p.failures ≠ []) ∧
      ((Outcome.ofProgress identifier p).status = .success ↔
        p.failures = [] ∧ p.outputs ≠ []) ∧
      ((Outcome.ofProgress identifier p).status = .unsupported ↔
        p.failures = [] ∧ p.outputs = []) := by
  cases hfailures : p.failures <;> cases houtputs : p.outputs <;>
    simp [Outcome.ofProgress, hfailures, houtputs]

/-- An outcome lists what was written, and has its digest. -/
theorem outcome_dispatch (d : Dispatcher) (entry : Entry) (mode : Mode) (site : Site) :
    let o := ((d.dispatch entry mode).run site).1
    let writes := (d.dispatch entry mode).writes site
    o.identifier = entry.identifier ∧ o.outputs = writes.map Prod.fst ∧
      o.digest =
        if writes = [] then none else some (Checksum.Md5.hex (writes.flatMap Prod.snd)) := by
  intro o writes
  obtain ⟨outputs, houtputs, hrun, hwrites⟩ := d.run_dispatch entry mode site
  have ho : o = .ofProgress entry.identifier
      ⟨outputs, (trials d.debug (d.steps entry mode) site).flatMap Trial.failures⟩ :=
    congrArg Prod.fst hrun
  have hpaths : writes = outputs.map fun o => (o.path, o.data) := hwrites.trans houtputs.symm
  rw [ho, hpaths]
  refine ⟨rfl, by simp [Outcome.ofProgress, Function.comp_def], ?_⟩
  cases outputs with
  | nil => rfl
  | cons output outputs => simp [Outcome.ofProgress, List.flatMap_map]

/-- The status of an outcome tells whether a step failed and whether anything was written. -/
theorem status_dispatch (d : Dispatcher) (entry : Entry) (mode : Mode) (site : Site) :
    let o := ((d.dispatch entry mode).run site).1
    let writes := (d.dispatch entry mode).writes site
    let tried := trials d.debug (d.steps entry mode) site
    (o.status = .failed ↔ ∃ t ∈ tried, t.isFailed = true) ∧
      (o.status = .success ↔ (∀ t ∈ tried, t.isFailed = false) ∧ writes ≠ []) ∧
      (o.status = .unsupported ↔ (∀ t ∈ tried, t.isFailed = false) ∧ writes = []) := by
  intro o writes tried
  obtain ⟨outputs, houtputs, hrun, hwrites⟩ := d.run_dispatch entry mode site
  have ho : o = .ofProgress entry.identifier ⟨outputs, tried.flatMap Trial.failures⟩ :=
    congrArg Prod.fst hrun
  have hpaths : writes = outputs.map fun o => (o.path, o.data) := hwrites.trans houtputs.symm
  have hnone : outputs = [] ↔ writes = [] := by
    rw [hpaths, List.map_eq_nil_iff]
  have hfailures : tried.flatMap Trial.failures = [] ↔ ∀ t ∈ tried, t.isFailed = false := by
    rw [List.flatMap_eq_nil_iff]
    exact forall₂_congr fun t _ => t.failures_eq_nil_iff
  obtain ⟨hfailed, hsuccess, hunsupported⟩ :=
    status_ofProgress entry.identifier ⟨outputs, tried.flatMap Trial.failures⟩
  rw [← ho] at hfailed hsuccess hunsupported
  refine ⟨?_, ?_, ?_⟩
  · rw [hfailed, ne_eq, hfailures]
    simp
  · rw [hsuccess, hfailures, ne_eq, hnone]
  · rw [hunsupported, hfailures, hnone]

/-- Dispatching an entry always ends in an outcome. Its outputs are the paths written meanwhile, in
the order of the steps, and its digest is that of all that was written. Every step is tried; the
entry has failed if one of them did, else it was exported if anything was written, and is
unsupported otherwise. A member that can be read and written at its turn is written as it is,
whatever happened before. -/
theorem dispatch_accounts (d : Dispatcher) (entry : Entry) (mode : Mode) (site : Site) :
    let o := ((d.dispatch entry mode).run site).1
    let left := ((d.dispatch entry mode).run site).2
    let writes := (d.dispatch entry mode).writes site
    let tried := Step.trials d.debug (d.steps entry mode) site
    o.identifier = entry.identifier ∧
      o.outputs = writes.map Prod.fst ∧
      left.sink.written = site.sink.written ++ writes.map Prod.fst ∧
      (∃ document images members, writes = document ++ images ++ members ∧
        d.Arranged entry mode document images members) ∧
      o.digest =
        (if writes = [] then none else some (Checksum.Md5.hex (writes.flatMap Prod.snd))) ∧
      tried.map Trial.kind = (d.steps entry mode).map Prod.fst ∧
      writes = tried.flatMap Trial.writes ∧
      (o.status = .failed ↔ ∃ t ∈ tried, t.isFailed = true) ∧
      (o.status = .success ↔ (∀ t ∈ tried, t.isFailed = false) ∧ writes ≠ []) ∧
      (o.status = .unsupported ↔ (∀ t ∈ tried, t.isFailed = false) ∧ writes = []) ∧
      ∀ before member after, mode.raw = true → entry.members = before ++ member :: after →
        let here := ((d.dispatch { entry with members := before } mode).run site).2
        ∀ data target, (here.archive.read here.disk member).1 = .ok data →
          (here.sink.write here.disk member data).2.2 = .ok target →
          ∃ rest, writes =
            (d.dispatch { entry with members := before } mode).writes site ++
              (member, data) :: rest := by
  intro o left writes tried
  obtain ⟨hidentifier, houtputs, hdigest⟩ := d.outcome_dispatch entry mode site
  obtain ⟨hfailed, hsuccess, hunsupported⟩ := d.status_dispatch entry mode site
  obtain ⟨-, -, -, hwrites⟩ := d.run_dispatch entry mode site
  refine ⟨hidentifier, houtputs, ((d.dispatch entry mode).written_run site).2,
    d.exists_arranged entry mode site, hdigest, Step.map_kind_trials _ _ _, hwrites, hfailed,
    hsuccess, hunsupported, ?_⟩
  intro before member after hmode hmembers here data target hread hwrite
  obtain ⟨rest, hrest⟩ := writes_of_members_eq d site hmode hmembers
  refine ⟨rest, hrest.trans ?_⟩
  rw [Step.writes_copy, hread]
  simp only
  rw [hwrite, List.append_assoc]
  rfl

end Dispatcher

end ArchiveExport
