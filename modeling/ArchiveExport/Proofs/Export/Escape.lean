import ArchiveExport.Proofs.Export.Bundle
import ArchiveExport.Proofs.Resource.RaisedFrames

/-!
# What escapes from decoding

Of all that the accesses of a decoder may raise, nothing but the faults of its format leaves the
decoder. A bundle fails with such a fault or with an error of reading its entries, unless its
archive cannot even look at the file of a companion: what the disk says then is passed on as it is.
-/

namespace ArchiveExport

namespace Archive

variable {a : Archive} {disk : Disk} {key : String} {fault : Archive.Fault}

/-- The errors of reading an entry. -/
def Fault.IsReadError : Fault → Prop
  | .noEntry _ | .encrypted _ | .truncated .. | .inflate _ | .notLoaded _ | .closed _
  | .unreadable .. => True
  | .gone _ | .noPaths | .noProvider _ | .mixed | .opening _ => False

/-- The file behind a key cannot be looked at. -/
def LacksFile (a : Archive) (disk : Disk) (key : String) (fault : Disk.Fault) : Prop :=
  ∃ files file, a = .folder files ∧ files.file? key = some file ∧
    disk.look [] file.text = .error fault

theorem isReadError_of_readStored {file : Grf.File} {e : Grf.Entry}
    (h : file.readStored e = .error fault) : fault.IsReadError := by
  unfold Grf.File.readStored at h
  split at h
  · cases h
    trivial
  · simp only at h
    split at h
    · cases h
      trivial
    · cases h

theorem isReadError_of_inflateEntry {e : Grf.Entry} {octets : Bytes}
    (h : Grf.inflateEntry e octets = .error fault) : fault.IsReadError := by
  unfold Grf.inflateEntry at h
  simp only at h
  split_ifs at h
  split at h
  · cases h
  · split at h
    · cases h
    · cases h
      trivial

theorem isReadError_of_loadEntry {store : Grf.Store} {e : Grf.Entry}
    (h : store.loadEntry e = .error fault) : fault.IsReadError := by
  unfold Grf.Store.loadEntry at h
  by_cases hencrypted : e.isEncrypted = true
  · rw [if_pos hencrypted] at h
    cases h
    trivial
  rw [if_neg hencrypted] at h
  cases hfile : store.files.find? fun f => f.path = e.archivePath with
  | none =>
      simp only [hfile] at h
      cases h
      trivial
  | some file =>
      simp only [hfile] at h
      cases hstored : file.readStored e with
      | error other =>
          rw [hstored] at h
          cases h
          exact isReadError_of_readStored hstored
      | ok octets =>
          rw [hstored] at h
          exact isReadError_of_inflateEntry h

theorem isReadError_of_read (h : (a.read disk key).1 = .error fault) : fault.IsReadError := by
  cases a with
  | grf store =>
      simp only [Archive.read, Grf.Store.read] at h
      split at h
      · cases h
      · simp only [Grf.Store.load] at h
        split at h
        · cases h
          trivial
        · exact isReadError_of_loadEntry h
  | folder files =>
      simp only [Archive.read, FolderArchive.read] at h
      split at h
      · cases h
        trivial
      · next file _ =>
        cases hread : disk.read [] file.text with
        | error other =>
            rw [hread] at h
            cases h
            trivial
        | ok data =>
            rw [hread] at h
            cases h

/-- Looking for an entry fails where the file behind its key cannot be looked at, and only there. -/
theorem contains_eq_error_iff :
    a.contains disk key = .error fault ↔
      ∃ cause, fault = .gone cause ∧ a.LacksFile disk key cause := by
  cases a with
  | grf store =>
      simp [contains, info?, Except.map, LacksFile]
  | folder files =>
      have hlacks (cause : Disk.Fault) : (folder files).LacksFile disk key cause ↔
          ∃ file, files.file? key = some file ∧ disk.look [] file.text = .error cause := by
        constructor
        · rintro ⟨other, file, hother, hfile⟩
          cases hother
          exact ⟨file, hfile⟩
        · rintro ⟨file, hfile⟩
          exact ⟨files, file, rfl, hfile⟩
      simp only [hlacks, contains, info?, FolderArchive.size?]
      cases hfile : files.file? key with
      | none => simp [Except.map]
      | some file =>
          cases hlook : disk.look [] file.text with
          | error cause =>
              simp only [hlook, Except.map, Except.error.injEq, Option.some.injEq,
                exists_eq_left']
              constructor
              · rintro rfl
                exact ⟨cause, rfl, rfl⟩
              · rintro ⟨_, rfl, rfl⟩
                rfl
          | ok node => cases node <;> simp [hlook, Except.map]

/-- What looking for an entry fails with is the one thing that the disk says of its file. -/
theorem exists_gone_of_contains (h : a.contains disk key = .error fault) :
    ∃ cause, fault = .gone cause ∧ ∀ other, a.LacksFile disk key other ↔ cause = other := by
  obtain ⟨cause, rfl, hcause⟩ := contains_eq_error_iff.mp h
  refine ⟨cause, rfl, fun other => ⟨fun hother => ?_, fun heq => heq ▸ hcause⟩⟩
  rw [contains_eq_error_iff.mpr ⟨other, rfl, hother⟩] at h
  cases h
  rfl

theorem not_lacksFile_of_contains {found : Bool} (h : a.contains disk key = .ok found)
    (cause : Disk.Fault) : ¬ a.LacksFile disk key cause := by
  intro hlacks
  rw [contains_eq_error_iff.mpr ⟨cause, rfl, hlacks⟩] at h
  cases h

end Archive

/-- The causes that decoding a bundle may end in: octets or companions that are no resource, and
the errors of reading an entry. -/
def Cause.IsExpected : Cause → Prop
  | .resource _ => True
  | .archive fault => fault.IsReadError
  | _ => False

namespace Step

variable {α β : Type} {step : Step α} {next : α → Step β} {site : Site} {stem : String}

/-- At a site a step succeeds or fails with an expected cause. -/
def FailsExpected (step : Step α) (site : Site) : Prop :=
  step.Asks site fun result _ => ∀ cause, result = .error cause → cause.IsExpected

theorem FailsExpected.bind (h : step.FailsExpected site)
    (hnext : ∀ value left, (next value).FailsExpected left) :
    (step >>= next).FailsExpected site := by
  refine Asks.bind h (fun cause _ hcause other hother => ?_) fun value _ left _ => hnext value left
  cases hother
  exact hcause cause rfl

theorem failsExpected_pure (value : α) : FailsExpected (pure value) site :=
  asks_pure fun _ h => nomatch h

theorem failsExpected_read (key : String) : (read key).FailsExpected site := by
  intro p cause h
  rw [run_read, Job.run] at h
  cases hread : site.archive.read site.disk key with
  | mk answer archive =>
      cases answer with
      | error fault =>
          rw [hread] at h
          cases h
          exact Archive.isReadError_of_read (congrArg Prod.fst hread)
      | ok data =>
          rw [hread] at h
          cases h

theorem failsExpected_getResource {ε : Type} (cause : ε → Resource.FaultAt)
    (result : Except ε α) :
    (get (fun fault => .resource (cause fault)) result).FailsExpected site := by
  cases result with
  | error fault =>
      refine asks_throw fun other h => ?_
      cases h
      trivial
  | ok value => exact failsExpected_pure value

theorem failsExpected_decodeSprite (key : String) : (decodeSprite key).FailsExpected site := by
  refine (failsExpected_read key).bind fun _ _ => (settled_warn _).bind_asks fun _ _ => ?_
  exact failsExpected_getResource _ _

/-- An archive that cannot look whether there is an entry makes the whole step fail. -/
theorem asks_contains_error {key : String} {fault : Archive.Fault} {next : Bool → Step β}
    {goal : Except Cause β → List String → Prop}
    (hfault : site.archive.contains site.disk key = .error fault)
    (h : goal (.error (.archive fault)) []) : (contains key >>= next).Asks site goal := by
  intro p
  have hrun : (contains key >>= next).run.run p = .contains key fun answer =>
      match answer with
      | .ok found => (next found).run.run p
      | .error fault => .done (.error (.archive fault), p) := by
    rw [contains, bind_assoc, run_bind]
    refine congrArg (Job.contains key) (funext fun answer => ?_)
    cases answer <;> rfl
  rw [hrun, Job.run, Job.reads, hfault]
  exact h

/-- The first companion of a bundle whose file cannot be looked at. -/
def LacksCompanion (site : Site) (stem : String) (fault : Disk.Fault) : Prop :=
  site.archive.LacksFile site.disk (stem ++ ".spr") fault ∨
    (∀ other, ¬ site.archive.LacksFile site.disk (stem ++ ".spr") other) ∧
      site.archive.LacksFile site.disk (stem ++ ".act") fault

theorem failsExpected_of_found (stem : String) (hasSprite hasAnimation : Bool) :
    FailsExpected (do
      let missing :=
        (if hasSprite then [] else [stem ++ ".spr"]) ++
          (if hasAnimation then [] else [stem ++ ".act"])
      if !missing.isEmpty then
        throw (.resource ⟨.companions missing, stem⟩)
      let sprite ← decodeSprite (stem ++ ".spr")
      let data ← read (stem ++ ".act")
      let animation ← get (fun fault => .resource ⟨.animation fault, stem ++ ".act"⟩)
        (Animation.decode data)
      return Resource.bundle stem sprite animation) site := by
  have hmissing (keys : List String) {next : PUnit → Step Resource} :
      FailsExpected (throw (.resource ⟨.companions keys, stem⟩) >>= next) site :=
    asks_throw fun cause h => by cases h; trivial
  cases hasSprite <;> cases hasAnimation
  · exact hmissing _
  · exact hmissing _
  · exact hmissing _
  · refine (failsExpected_decodeSprite _).bind fun _ _ => (failsExpected_read _).bind fun _ _ => ?_
    exact (failsExpected_getResource _ _).bind fun _ _ => failsExpected_pure _

theorem asks_decodeBundle (site : Site) (stem : String) :
    (decodeBundle stem).Asks site fun result _ =>
      (∀ cause, result = .error cause →
        cause.IsExpected ∨ ∃ fault, cause = .archive (.gone fault)) ∧
      ∀ fault, result = .error (.archive (.gone fault)) ↔ LacksCompanion site stem fault := by
  cases hsprite : site.archive.contains site.disk (stem ++ ".spr") with
  | error fault =>
      obtain ⟨cause, rfl, hlacks⟩ := Archive.exists_gone_of_contains hsprite
      refine asks_contains_error hsprite ⟨fun other h => ?_, fun other => ?_⟩
      · cases h
        exact Or.inr ⟨cause, rfl⟩
      · simp only [LacksCompanion, hlacks, Except.error.injEq, Cause.archive.injEq,
          Archive.Fault.gone.injEq]
        exact ⟨Or.inl, fun h => h.resolve_right fun h => h.1 cause rfl⟩
  | ok hasSprite =>
      have hfound := Archive.not_lacksFile_of_contains hsprite
      cases hanimation : site.archive.contains site.disk (stem ++ ".act") with
      | error fault =>
          obtain ⟨cause, rfl, hlacks⟩ := Archive.exists_gone_of_contains hanimation
          refine asks_contains hsprite (asks_contains_error hanimation ⟨fun other h => ?_,
            fun other => ?_⟩)
          · cases h
            exact Or.inr ⟨cause, rfl⟩
          · simp [LacksCompanion, hlacks, hfound]
      | ok hasAnimation =>
          refine asks_contains hsprite (asks_contains hanimation ?_)
          refine (failsExpected_of_found stem hasSprite hasAnimation).mono fun result _ h => ?_
          refine ⟨fun cause hcause => Or.inl (h cause hcause), fun fault => ?_⟩
          refine ⟨fun hresult => absurd (h _ hresult) id, fun hlacks => ?_⟩
          have hfound' := Archive.not_lacksFile_of_contains hanimation
          exact absurd hlacks (by simp [LacksCompanion, hfound, hfound'])

/-- Whatever the octets, each of the decoders gives the same with accesses that raise: a resource or
a fault of its format, and nothing else that was raised. For each archive and stem, decoding a
bundle ends in a resource, in such a fault or in an error of reading an entry, unless the file of a
companion cannot be looked at; then, and only then, what the disk says escapes. -/
theorem escapes_iff_lacksCompanion (bs : Bytes) (site : Site) (stem : String) :
    (Palette.decodeRaising bs = (Palette.decode bs).mapError .fault ∧
      Sprite.decodeRaising bs = (Sprite.decode bs).2.mapError .fault ∧
      Animation.decodeRaising bs = (Animation.decode bs).mapError .fault ∧
      AltitudeMap.decodeRaising bs = (AltitudeMap.decode bs).mapError .fault ∧
      World.decodeRaising bs = (World.decode bs).mapError .fault) ∧
    (decodeBundle stem).Asks site fun result _ =>
      (∀ cause, result = .error cause →
        cause.IsExpected ∨ ∃ fault, cause = .archive (.gone fault)) ∧
      ∀ fault, result = .error (.archive (.gone fault)) ↔ LacksCompanion site stem fault :=
  ⟨⟨Palette.decodeRaising_eq bs, Sprite.decodeRaising_eq bs, Animation.decodeRaising_eq bs,
    AltitudeMap.decodeRaising_eq bs, World.decodeRaising_eq bs⟩, asks_decodeBundle site stem⟩

/-- The two halves as an archive that was opened before the sprite was deleted. -/
def deletedHalf : Site :=
  { Entry.mixedCaseSite with disk := Disk.empty.putFile ["in", "a.ACT"] [1] }

/-- The archive finds no sprite any more, and that is not an error of its own. -/
theorem decodeBundle_escapes_of_deletedHalf :
    Archive.Opened Entry.mixedCase ⟨"/", []⟩ ["in"] 0 deletedHalf.archive ∧
      (decodeBundle "a").Asks deletedHalf fun result _ =>
        ∃ cause, result = .error cause ∧ ¬ cause.IsExpected ∧
          cause.message = "[Errno 2] No such file or directory: '/in/a.spr'" := by
  have hlacks : LacksCompanion deletedHalf "a" (.refused .noEntry "/in/a.spr") :=
    Or.inl ⟨_, ⟨"/in/a.spr", 0⟩, rfl, by decide, by decide⟩
  refine ⟨Entry.opened_mixedCase, (asks_decodeBundle deletedHalf "a").mono fun result _ h => ?_⟩
  exact ⟨_, (h.2 _).mpr hlacks, id, by decide⟩

end Step

end ArchiveExport
