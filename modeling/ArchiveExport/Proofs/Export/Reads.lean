import ArchiveExport.Export.Dispatch
import ArchiveExport.Proofs.Export.Step

/-!
# What a step reads

A step asks the archive for the data of some keys, one after the other. Conditions on the result of
a step and on the keys that it reads follow from those of its parts.
-/

namespace ArchiveExport

namespace Job

variable {α β : Type}

/-- The keys whose data a job asks for at a site, in order. -/
def reads : Job α → Site → List String
  | .done _, _ => []
  | .read key next, site =>
    let (answer, archive) := site.archive.read site.disk key
    key :: (next answer).reads { site with archive }
  | .contains key next, site => (next (site.archive.contains site.disk key)).reads site
  | .write path data next, site =>
    let (sink, disk, answer) := site.sink.write site.disk path data
    (next (answer.map fun _ => ())).reads { site with sink, disk }
  | .print channel line next, site =>
    next.reads { site with console := site.console.printLine channel line }

/-- The second job reads behind what the first one has read. -/
theorem reads_bind (job : Job α) (f : α → Job β) (site : Site) :
    (job.bind f).reads site =
      job.reads site ++ (f (job.run site).1).reads (job.run site).2 := by
  induction job generalizing site with
  | done value => rfl
  | read key next ih => simp only [bind, reads, run, ih, List.cons_append]
  | contains key next ih => exact ih _ _
  | write path data next ih => simp only [bind, reads, run, ih]
  | print channel line next ih => exact ih _

end Job

/-- A cause that tells of companions that the archive lacks. -/
def Cause.TellsMissing : Cause → Prop
  | .resource ⟨.companions _, _⟩ => True
  | .resource ⟨.frameCompanion _, _⟩ => True
  | _ => False

namespace Step

variable {α β : Type} {step : Step α} {next : α → Step β} {site : Site} {codecs : Codecs}
  {post : Except Cause α → List String → Prop} {goal : Except Cause β → List String → Prop}

/-- Whether a step fails for want of companions. -/
def TellsMissing : Except Cause α → Prop
  | .error cause => cause.TellsMissing
  | .ok _ => False

/-- At a site, whatever is noted already, the condition holds of the result of a step and of the
keys that it reads. -/
def Asks (step : Step α) (site : Site) (post : Except Cause α → List String → Prop) : Prop :=
  ∀ p : Progress, post ((step.run.run p).run site).1.1 ((step.run.run p).reads site)

theorem Asks.mono {post' : Except Cause α → List String → Prop} (h : step.Asks site post)
    (himp : ∀ result keys, post result keys → post' result keys) : step.Asks site post' :=
  fun p => himp _ _ (h p)

theorem asks_pure {value : α} (h : post (.ok value) []) : Asks (pure value) site post :=
  fun _ => h

theorem asks_throw {cause : Cause} (h : post (.error cause) []) :
    Asks (throw cause : Step α) site post :=
  fun _ => h

theorem Asks.bind (h : step.Asks site post)
    (herror : ∀ cause keys, post (.error cause) keys → goal (.error cause) keys)
    (hnext : ∀ value keys left, post (.ok value) keys →
      (next value).Asks left fun result others => goal result (keys ++ others)) :
    (step >>= next).Asks site goal := by
  intro p
  have hpost := h p
  rw [run_bind, Job.run_bind, Job.reads_bind]
  generalize ((step.run.run p).run site).2 = left at *
  rcases hrun : ((step.run.run p).run site).1 with ⟨cause | value, noted⟩
  · rw [hrun] at hpost
    simp only [Job.run, Job.reads, List.append_nil]
    exact herror cause _ hpost
  · rw [hrun] at hpost
    exact hnext value _ left hpost noted

/-- The site has told whether there is an entry. -/
theorem asks_contains {key : String} {found : Bool} {next : Bool → Step β}
    (hfound : site.archive.contains site.disk key = .ok found) (h : (next found).Asks site goal) :
    (contains key >>= next).Asks site goal := by
  intro p
  have hrun : (contains key >>= next).run.run p = .contains key fun answer =>
      match answer with
      | .ok found => (next found).run.run p
      | .error fault => .done (.error (.archive fault), p) := by
    rw [contains, bind_assoc, run_bind]
    refine congrArg (Job.contains key) (funext fun answer => ?_)
    cases answer <;> rfl
  rw [hrun, Job.run, Job.reads, hfound]
  exact h p

/-! ### Steps without reads -/

/-- A step that reads nothing and does not fail. -/
def Settled (step : Step α) : Prop :=
  ∀ site, step.Asks site fun result keys => keys = [] ∧ ∃ value, result = .ok value

theorem settled_pure (value : α) : Settled (pure value) :=
  fun _ => asks_pure ⟨rfl, value, rfl⟩

theorem Settled.bind_asks (h : step.Settled) (hnext : ∀ value left, (next value).Asks left goal) :
    (step >>= next).Asks site goal := by
  refine (h site).bind ?_ ?_
  · rintro cause keys ⟨-, value, hvalue⟩
    simp at hvalue
  · rintro value keys left ⟨rfl, -⟩
    exact hnext value left

theorem Settled.bind (h : step.Settled) (hnext : ∀ value, (next value).Settled) :
    (step >>= next).Settled :=
  fun _ => h.bind_asks fun value left => hnext value left

theorem settled_print (channel : Channel) (line : String) :
    Settled (job (.print channel line (.done ()))) :=
  fun _ _ => ⟨rfl, (), rfl⟩

theorem settled_forM {items : List α} {f : α → Step Unit} (h : ∀ item, (f item).Settled) :
    (items.forM f).Settled := by
  induction items with
  | nil => exact settled_pure ()
  | cons item items ih => exact (h item).bind fun _ => ih

theorem settled_warn (warnings : List Sprite.Warning) : (warn warnings).Settled :=
  settled_forM fun _ => settled_print _ _

theorem settled_drawFrames (s : Sprite) : (drawFrames s).Settled := by
  rw [drawFrames_eq]
  exact (settled_warn _).bind fun _ => settled_pure _

/-! ### Sprites and bundles -/

/-- A key is read once, and does not fail for want of companions. -/
theorem asks_read (site : Site) (key : String) :
    (read key).Asks site fun result keys =>
      keys = [key] ∧ ¬ TellsMissing result := by
  intro p
  rw [run_read, Job.run, Job.reads]
  rcases site.archive.read site.disk key with ⟨fault | data, archive⟩
  · exact ⟨rfl, id⟩
  · exact ⟨rfl, id⟩

theorem asks_get {ε : Type} {cause : ε → Cause} {result : Except ε α}
    (h : ∀ fault, ¬ (cause fault).TellsMissing) :
    (get cause result).Asks site fun result keys =>
      keys = [] ∧ ¬ TellsMissing result := by
  cases result with
  | error fault => exact asks_throw ⟨rfl, h fault⟩
  | ok value => exact asks_pure ⟨rfl, id⟩

theorem asks_decodeSprite (site : Site) (key : String) :
    (decodeSprite key).Asks site fun result keys =>
      keys = [key] ∧ ¬ TellsMissing result := by
  refine (asks_read site key).bind (fun cause keys h => h) ?_
  rintro data keys left ⟨rfl, -⟩
  refine (settled_warn _).bind_asks fun _ left => ?_
  exact (asks_get fun _ => id).mono fun result others ⟨hnone, hcause⟩ =>
    ⟨by rw [hnone, List.append_nil], hcause⟩

/-- The keys of a bundle that the archive lacks are told, and then nothing is read. -/
theorem asks_decodeBundle_of_missing (stem : String) {hasSprite hasAnimation : Bool}
    (hsprite : site.archive.contains site.disk (stem ++ ".spr") = .ok hasSprite)
    (hanimation : site.archive.contains site.disk (stem ++ ".act") = .ok hasAnimation)
    (h : (hasSprite && hasAnimation) = false) :
    (decodeBundle stem).Asks site fun result keys => keys = [] ∧
      result = .error (.resource ⟨.companions
        ((if hasSprite then [] else [stem ++ ".spr"]) ++
          (if hasAnimation then [] else [stem ++ ".act"])), stem⟩) := by
  refine asks_contains hsprite (asks_contains hanimation ?_)
  cases hasSprite <;> cases hasAnimation
  · exact asks_throw ⟨rfl, rfl⟩
  · exact asks_throw ⟨rfl, rfl⟩
  · exact asks_throw ⟨rfl, rfl⟩
  · simp at h

/-- Where both keys of a bundle are there, the sprite is read and, unless it cannot be decoded, the
animation behind it. -/
theorem asks_decodeBundle_of_found {stem : String}
    (hsprite : site.archive.contains site.disk (stem ++ ".spr") = .ok true)
    (hanimation : site.archive.contains site.disk (stem ++ ".act") = .ok true) :
    (decodeBundle stem).Asks site fun result keys =>
      (keys = [stem ++ ".spr", stem ++ ".act"] ∨
        keys = [stem ++ ".spr"] ∧ ∃ cause, result = .error cause) ∧
      ¬ TellsMissing result := by
  refine asks_contains hsprite (asks_contains hanimation ?_)
  refine (asks_decodeSprite site (stem ++ ".spr")).bind ?_ ?_
  · rintro cause keys ⟨rfl, hcause⟩
    exact ⟨Or.inr ⟨rfl, cause, rfl⟩, hcause⟩
  · rintro sprite keys left ⟨rfl, -⟩
    refine (asks_read left (stem ++ ".act")).bind ?_ ?_
    · rintro cause keys ⟨rfl, hcause⟩
      exact ⟨Or.inl rfl, hcause⟩
    · rintro data keys left ⟨rfl, -⟩
      refine (asks_get fun _ => id).bind ?_ ?_
      · rintro cause keys ⟨rfl, hcause⟩
        exact ⟨Or.inl rfl, hcause⟩
      · rintro animation keys left ⟨rfl, -⟩
        exact asks_pure ⟨Or.inl rfl, id⟩

/-- The images of a bundle are drawn from its sprite alone. -/
theorem asks_bundleFrames_of_found {stem : String}
    (hsprite : site.archive.contains site.disk (stem ++ ".spr") = .ok true) :
    (render codecs .bundleFrames stem).Asks site fun result keys =>
      keys = [stem ++ ".spr"] ∧ ¬ TellsMissing result := by
  refine asks_contains hsprite ?_
  refine (asks_decodeSprite site (stem ++ ".spr")).bind (fun cause keys h => h) ?_
  rintro sprite keys left ⟨rfl, -⟩
  refine ((settled_drawFrames sprite) left).mono ?_
  rintro result others ⟨rfl, value, rfl⟩
  exact ⟨rfl, id⟩

theorem asks_bundleFrames_of_missing {stem : String}
    (hsprite : site.archive.contains site.disk (stem ++ ".spr") = .ok false) :
    (render codecs .bundleFrames stem).Asks site fun result keys => keys = [] ∧
      result = .error (.resource ⟨.frameCompanion (stem ++ ".spr"), stem⟩) :=
  asks_contains hsprite (asks_throw ⟨rfl, rfl⟩)

end Step

end ArchiveExport
