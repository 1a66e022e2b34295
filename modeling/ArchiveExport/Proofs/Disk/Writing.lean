import ArchiveExport.Proofs.Disk.Folders

/-!
# Writing a file again

A file is written where the way to it is free and no folder is in its place; else the write fails,
and the folders that were made on the way stay. What a write leaves decides how the same write goes
from then on: as long as no file or folder gives way to another, it fails or succeeds alike, and no
folder is added.
-/

namespace ArchiveExport.Disk

variable {d e : Disk} {lead name : String} {front place : Path}

/-- Writing where the folders in front of the last name are there. -/
theorem write_concat (h : (AbsolutePath.mk lead (front ++ [name])).Normal)
    (hfolders : ∀ above, above <+: front → above ≠ front → d.node? above = some .folder)
    (hfront : d.node? front ≠ none) (hsizes : ∀ other ∈ front, other.utf8ByteSize ≤ maxName)
    (data : Bytes) :
    let text := (AbsolutePath.mk lead (front ++ [name])).text
    d.write [] text data =
      match d.hindrance? lead front name with
      | some fault => .error fault
      | none =>
        if d.hasFolder (front ++ [name]) then .error (.refused .isFolder text)
        else .ok (d.put (front ++ [name]) (.file data)) := by
  intro text
  have hlocate := locate_concat h hfolders hfront hsizes []
  have hends : ¬ (text ≠ "/" ∧ Text.endsWith "/" text = true) := by
    rw [(AbsolutePath.withoutSlashes_text h).2]
    simp
  rw [write, if_neg hends]
  simp only [text, hlocate]
  cases d.hindrance? lead front name with
  | some fault => rfl
  | none =>
      simp only [bind, Except.bind, pure, Except.pure]
      split
      · rfl
      · rfl

/-- Why a file cannot be written: a hindrance on the way, a file in place of a folder, or a folder
in its own place. -/
def writeFault? (d : Disk) (lead : String) (front : Path) (name : String) : Option Fault :=
  match d.madeAnswer lead front with
  | .error fault => some fault
  | .ok () =>
    (d.hindrance? lead front name).or <|
      if d.hasFolder (front ++ [name]) then
        some (.refused .isFolder (AbsolutePath.mk lead (front ++ [name])).text)
      else none

/-! ### The same access again -/

/-- What is a folder or a file on the first disk is one on the second, too, at a place and at the
places above and below it. -/
def Upholds (d : Disk) (place : Path) (e : Disk) : Prop :=
  ∀ other, other <+: place ∨ place <+: other →
    (d.node? other = some .folder → e.node? other = some .folder) ∧
      ((d.file? other).isSome → (e.file? other).isSome)

theorem Upholds.refl (place : Path) (d : Disk) : d.Upholds place d :=
  fun _ _ => ⟨id, id⟩

theorem Upholds.trans {f : Disk} (h : d.Upholds place e) (h' : e.Upholds place f) :
    d.Upholds place f := by
  intro other hother
  obtain ⟨hfolder, hfile⟩ := h other hother
  obtain ⟨hfolder', hfile'⟩ := h' other hother
  exact ⟨fun hthere => hfolder' (hfolder hthere), fun hthere => hfile' (hfile hthere)⟩

/-- The disks differ in nothing but what is in files, or in a log file. -/
def SameShape (log : Option Path) (d e : Disk) : Prop :=
  ∀ other, log ≠ some other →
    e.node? other = d.node? other ∨ ((d.file? other).isSome ∧ (e.file? other).isSome)

namespace SameShape

variable {log : Option Path} {f : Disk}

theorem refl (log : Option Path) (d : Disk) : d.SameShape log d :=
  fun _ _ => Or.inl rfl

theorem trans (h : d.SameShape log e) (h' : e.SameShape log f) : d.SameShape log f := by
  intro other hlog
  rcases h other hlog with hsame | ⟨hfile, hfile'⟩
  · rcases h' other hlog with hsame' | ⟨hfile, hfile'⟩
    · exact Or.inl (hsame'.trans hsame)
    · rw [file?, hsame, ← file?] at hfile
      exact Or.inr ⟨hfile, hfile'⟩
  · rcases h' other hlog with hsame' | ⟨-, hfile''⟩
    · rw [file?, ← hsame', ← file?] at hfile'
      exact Or.inr ⟨hfile, hfile'⟩
    · exact Or.inr ⟨hfile, hfile''⟩

theorem upholds (h : d.SameShape log e) (place : Path)
    (hlog : ∀ other, other <+: place ∨ place <+: other → log ≠ some other) :
    d.Upholds place e := by
  intro other hnear
  rcases h other (hlog other hnear) with hsame | ⟨hfile, hfile'⟩
  · rw [file?, file?, hsame]
    exact ⟨id, id⟩
  · refine ⟨fun hfolder => ?_, fun _ => hfile'⟩
    simp [file?, hfolder] at hfile

end SameShape

/-- The second disk is what writing a file leaves of the first one. -/
def Written (d : Disk) (lead : String) (front : Path) (name : String) (data : Bytes) (e : Disk) :
    Prop :=
  ∃ made, d.Made lead front made ∧
    e = match d.writeFault? lead front name with
      | some _ => made
      | none => made.put (front ++ [name]) (.file data)

/-- The way to a file that can be written is free, and there is no folder in its place. -/
theorem writeFault?_eq_none (h : d.writeFault? lead front name = none) :
    d.wayFault? lead front = none ∧ d.file? front = none ∧ d.hindrance? lead front name = none ∧
      d.node? (front ++ [name]) ≠ some .folder := by
  rw [writeFault?] at h
  split at h
  · simp at h
  next hanswer =>
    obtain ⟨hway, hfile⟩ := madeAnswer_eq_ok_iff.mp hanswer
    obtain ⟨hhindrance, hlast⟩ := Option.or_eq_none_iff.mp h
    refine ⟨hway, hfile, hhindrance, fun hfolder => ?_⟩
    simp [hasFolder, hfolder] at hlast

namespace Written

variable {data : Bytes}

/-- Besides the file, folders are added and nothing else changes. -/
theorem node?_eq (h : d.Written lead front name data e) {other : Path}
    (hother : other ≠ front ++ [name]) :
    e.node? other =
      if other <+: front ∧ d.wayFault? lead other = none ∧ d.node? other = none then some .folder
      else d.node? other := by
  obtain ⟨made, hmade, rfl⟩ := h
  cases d.writeFault? lead front name with
  | some fault => exact hmade other
  | none =>
      simp only
      rw [node?_put (by simp), if_neg hother]
      exact hmade other

theorem file?_eq (h : d.Written lead front name data e) {other : Path}
    (hother : other ≠ front ++ [name]) : e.file? other = d.file? other := by
  obtain ⟨made, hmade, rfl⟩ := h
  rw [← hmade.grows.file? other]
  cases d.writeFault? lead front name with
  | some fault => rfl
  | none =>
      simp only
      rw [file?, file?, node?_put (by simp), if_neg hother]

theorem node?_last (h : d.Written lead front name data e) :
    e.node? (front ++ [name]) =
      if d.writeFault? lead front name = none then some (.file data)
      else d.node? (front ++ [name]) := by
  obtain ⟨made, hmade, rfl⟩ := h
  cases d.writeFault? lead front name with
  | some fault =>
      rw [if_neg (by simp)]
      exact hmade.concat_eq name
  | none =>
      simp only
      rw [node?_put (by simp), if_pos rfl, if_pos trivial]

theorem upholds (h : d.Written lead front name data e) (place : Path) : d.Upholds place e := by
  intro other _
  by_cases hother : other = front ++ [name]
  · subst hother
    rw [file?, file?, h.node?_last]
    split
    next hfree =>
      refine ⟨fun hfolder => absurd hfolder (writeFault?_eq_none hfree).2.2.2, fun _ => rfl⟩
    next => exact ⟨id, id⟩
  · rw [file?, file?, h.node?_eq hother]
    split
    next hnew => exact ⟨fun _ => rfl, fun hfile => by simp [hnew.2.2] at hfile⟩
    next => exact ⟨id, id⟩

/-- As far as the way is free, something is at every place on it. -/
theorem node?_ne_none (h : d.Written lead front name data e) {above : Path}
    (habove : above <+: front) (hway : d.wayFault? lead above = none) : e.node? above ≠ none := by
  rw [h.node?_eq (Path.ne_concat_of_prefix habove name)]
  split
  next => simp
  next hold => exact fun hnone => hold ⟨habove, hway, hnone⟩

/-- Where the way is free, the same places are files wherever all is upheld. -/
theorem isSome_file?_eq {place : Path} {f : Disk} (h : d.Written lead front name data e)
    (hup : e.Upholds place f) (hnear : ∀ above, above <+: front → above <+: place ∨ place <+: above)
    {above : Path} (habove : above <+: front) (hway : d.wayFault? lead above = none) :
    (f.file? above).isSome = (d.file? above).isSome := by
  obtain ⟨hfolder, hfile⟩ := hup above (hnear above habove)
  cases hold : d.file? above with
  | some data' =>
      have hthere : (e.file? above).isSome :=
        (h.upholds place above (hnear above habove)).2 (by simp [hold])
      rw [hfile hthere]
      rfl
  | none =>
      have hnone : e.file? above = none :=
        (h.file?_eq (Path.ne_concat_of_prefix habove name)).trans hold
      have hthere := hfolder (node?_eq_folder (h.node?_ne_none habove hway) hnone)
      simp [file?, hthere]

/-- Where all is upheld, the way to a file is free as far as it was, and all folders are there. -/
theorem wayFault?_eq {place : Path} {f : Disk} (h : d.Written lead front name data e)
    (hup : e.Upholds place f) (hnear : ∀ above, above <+: front → above <+: place ∨ place <+: above)
    {above : Path} (habove : above <+: front) :
    f.wayFault? lead above = d.wayFault? lead above ∧
      (d.wayFault? lead above = none → f.node? above ≠ none) := by
  constructor
  · induction above using List.reverseRecOn with
    | nil => rfl
    | append_singleton above next ih =>
        have hshort : above <+: front := (List.prefix_append _ _).trans habove
        rw [wayFault?_concat, wayFault?_concat, ih hshort]
        cases hway : d.wayFault? lead above with
        | some fault => rfl
        | none =>
            rw [Option.none_or, Option.none_or]
            exact hindrance?_congr (h.isSome_file?_eq hup hnear hshort hway) lead next
  · intro hway
    have hthere := h.node?_ne_none habove hway
    obtain ⟨hfolder, hfile⟩ := hup above (hnear above habove)
    cases hnode : e.node? above with
    | none => exact absurd hnode hthere
    | some node =>
        cases node with
        | folder => simp [hfolder hnode]
        | file data' =>
            intro hnone
            have hgone := hfile (by simp [file?, hnode])
            simp [file?, hnone] at hgone

/-- The same write fails or succeeds again wherever what it left is upheld. -/
theorem writeFault?_eq {place : Path} {f : Disk} (h : d.Written lead front name data e)
    (hup : e.Upholds place f)
    (hnear : ∀ above, above <+: front ++ [name] → above <+: place ∨ place <+: above) :
    f.writeFault? lead front name = d.writeFault? lead front name := by
  have hnear' : ∀ above, above <+: front → above <+: place ∨ place <+: above :=
    fun above habove => hnear above (habove.trans (List.prefix_append _ _))
  obtain ⟨hway, -⟩ := h.wayFault?_eq hup hnear' List.prefix_rfl
  cases hfault : d.wayFault? lead front with
  | some fault => rw [writeFault?, writeFault?, madeAnswer, madeAnswer, hway, hfault]
  | none =>
      have hfile := h.isSome_file?_eq hup hnear' List.prefix_rfl hfault
      have hhindrance : f.hindrance? lead front name = d.hindrance? lead front name :=
        hindrance?_congr hfile lead name
      have hlast := h.node?_last
      obtain ⟨hfolder, hfile'⟩ := hup (front ++ [name]) (hnear _ List.prefix_rfl)
      cases hfree : d.writeFault? lead front name with
      | none =>
          -- the file that was written is no folder now
          rw [if_pos hfree] at hlast
          obtain ⟨data', hdata'⟩ := Option.isSome_iff_exists.mp (hfile' (by simp [file?, hlast]))
          have hnode := node?_eq_file_iff.mp hdata'
          obtain ⟨hway', hnone, hnext, -⟩ := writeFault?_eq_none hfree
          rw [hnone] at hfile
          simp [writeFault?, madeAnswer, hway, hway', hfile, hhindrance, hnext, hasFolder, hnode]
      | some fault =>
          -- a folder in the place of the file is still there, and else the place does not count
          rw [if_neg (by simp [hfree])] at hlast
          rw [← hfree, writeFault?, writeFault?, madeAnswer, madeAnswer, hway, hfault, hfile,
            hhindrance]
          by_cases hthere : d.node? (front ++ [name]) = some .folder
          · have hthere' := hfolder (hlast.trans hthere)
            simp [hasFolder, hthere, hthere']
          · by_cases hfree' : (d.file? front).isSome = true
            · simp [hfree']
            · cases hnext : d.hindrance? lead front name with
              | some fault => simp [hfree']
              | none =>
                  simp [writeFault?, madeAnswer, hfault, hfree', hnext, hasFolder,
                    hthere] at hfree

/-- The same write again changes nothing but the file, wherever what it left is upheld. -/
theorem again {place : Path} {f g : Disk} (h : d.Written lead front name data e)
    (hup : e.Upholds place f)
    (hnear : ∀ above, above <+: front ++ [name] → above <+: place ∨ place <+: above)
    (h' : f.Written lead front name data g) :
    f.writeFault? lead front name = d.writeFault? lead front name ∧
      ∀ other, g.node? other =
        if d.writeFault? lead front name = none ∧ other = front ++ [name] then some (.file data)
        else f.node? other := by
  have hsame := h.writeFault?_eq hup hnear
  refine ⟨hsame, fun other => ?_⟩
  by_cases hother : other = front ++ [name]
  · subst hother
    rw [h'.node?_last, hsame]
    simp
  · have hnew : ¬ (other <+: front ∧ f.wayFault? lead other = none ∧ f.node? other = none) := by
      rintro ⟨habove, hfree, hnone⟩
      obtain ⟨hway, hthere⟩ := h.wayFault?_eq hup
        (fun above habove => hnear above (habove.trans (List.prefix_append _ _))) habove
      exact hthere (hway ▸ hfree) hnone
    rw [h'.node?_eq hother, if_neg hnew, if_neg fun hwritten => hother hwritten.2]

end Written

end ArchiveExport.Disk
