import ArchiveExport.Proofs.Disk.Tree
import ArchiveExport.Proofs.Disk.Writing

/-!
# Disks that are merged

Several disks start as one, and on each of them files are written at places of its own. One disk
that takes all their changes has at every place what the changed ones have there. As the disks add
nothing on each other's ways but folders, a write comes to the same on the one disk and on its own.
-/

namespace ArchiveExport.Disk

variable {start part whole part' whole' d e : Disk} {before after : List Disk}
  {log : Option Path} {targets : List Path} {target place front : Path} {lead name : String}
  {data : Bytes}

/-! ### The same way on two disks -/

theorem wayFault?_congr {names : Path}
    (h : ∀ above, above <+: names → (d.file? above).isSome = (e.file? above).isSome)
    (lead : String) : d.wayFault? lead names = e.wayFault? lead names := by
  induction names using List.reverseRecOn with
  | nil => rfl
  | append_singleton front name ih =>
      have hshort := fun above (habove : above <+: front) =>
        h above (habove.trans (List.prefix_append _ _))
      rw [wayFault?_concat, wayFault?_concat, ih hshort,
        hindrance?_congr (hshort front List.prefix_rfl)]

theorem writeFault?_congr
    (h : ∀ above, above <+: front → (d.file? above).isSome = (e.file? above).isSome)
    (hlast : d.node? (front ++ [name]) = e.node? (front ++ [name])) (lead : String) :
    d.writeFault? lead front name = e.writeFault? lead front name := by
  have hfront := h front List.prefix_rfl
  have hfolder : d.hasFolder (front ++ [name]) = e.hasFolder (front ++ [name]) := by
    rw [hasFolder, hasFolder, hlast]
  rw [writeFault?, writeFault?, madeAnswer, madeAnswer, wayFault?_congr h, hfront,
    hindrance?_congr hfront, hfolder]

/-- The second disk is like the first one on the way to a place, but that it may have more folders
in front of the place. -/
def LikeUpTo (d : Disk) (target : Path) (e : Disk) : Prop :=
  ∀ place, place <+: target → e.node? place = d.node? place ∨
    place ≠ target ∧ d.node? place = none ∧ e.node? place = some .folder

namespace LikeUpTo

theorem node?_eq (h : part.LikeUpTo target whole) : whole.node? target = part.node? target := by
  apply (h target List.prefix_rfl).resolve_right
  rintro ⟨hne, -⟩
  exact hne rfl

theorem isSome_file?_eq (h : part.LikeUpTo target whole) (hplace : place <+: target) :
    (whole.file? place).isSome = (part.file? place).isSome := by
  rcases h place hplace with hsame | ⟨-, hnone, hfolder⟩
  · rw [file?, file?, hsame]
  · simp [file?, hnone, hfolder]

theorem writeFault?_eq (h : part.LikeUpTo (front ++ [name]) whole) (lead : String) :
    whole.writeFault? lead front name = part.writeFault? lead front name := by
  refine writeFault?_congr (fun above habove => ?_) h.node?_eq lead
  exact h.isSome_file?_eq (habove.trans (List.prefix_append _ _))

theorem wayFault?_eq (h : part.LikeUpTo (front ++ [name]) whole) (hplace : place <+: front)
    (lead : String) : whole.wayFault? lead place = part.wayFault? lead place := by
  refine wayFault?_congr (fun above habove => ?_) lead
  exact h.isSome_file?_eq ((habove.trans hplace).trans (List.prefix_append _ _))

/-- At each place the write leaves both disks alike, or it changes neither of them. -/
theorem node?_written (h : part.LikeUpTo (front ++ [name]) whole)
    (hpart : part.Written lead front name data part')
    (hwhole : whole.Written lead front name data whole') (place : Path) :
    whole'.node? place = part'.node? place ∨
      whole'.node? place = whole.node? place ∧ part'.node? place = part.node? place := by
  by_cases hlast : place = front ++ [name]
  · left
    rw [hlast, hwhole.node?_last, hpart.node?_last, h.writeFault?_eq, h.node?_eq]
  · rw [hwhole.node?_eq hlast, hpart.node?_eq hlast]
    by_cases hfront : place <+: front
    · rw [h.wayFault?_eq hfront]
      rcases h place (hfront.trans (List.prefix_append _ _)) with hsame | ⟨-, hnone, hfolder⟩
      · rw [hsame]
        exact Or.inl rfl
      · rw [hnone, hfolder]
        by_cases hway : part.wayFault? lead place = none
        · simp [hfront, hway]
        · simp [hway]
    · simp [hfront]

end LikeUpTo

/-! ### What a disk has changed -/

/-- A disk has changed at some places, and else has nothing but new folders above them. -/
def ChangedAt (start : Disk) (targets : List Path) (d : Disk) : Prop :=
  ∀ place, d.node? place ≠ start.node? place → place ∈ targets ∨
    (∃ target ∈ targets, place <+: target) ∧ start.node? place = none ∧
      d.node? place = some .folder

theorem ChangedAt.refl (start : Disk) (targets : List Path) : start.ChangedAt targets start :=
  fun _ hne => absurd rfl hne

theorem ChangedAt.written (h : start.ChangedAt targets d) (hmem : front ++ [name] ∈ targets)
    (hwritten : d.Written lead front name data e) : start.ChangedAt targets e := by
  intro place hne
  by_cases hlast : place = front ++ [name]
  · exact Or.inl (hlast ▸ hmem)
  · rw [hwritten.node?_eq hlast] at hne ⊢
    split at hne
    next hnew =>
      rw [if_pos hnew]
      obtain ⟨hplace, -, hnone⟩ := hnew
      have habove : ∃ target ∈ targets, place <+: target :=
        ⟨_, hmem, hplace.trans (List.prefix_append _ _)⟩
      by_cases hsame : d.node? place = start.node? place
      · exact Or.inr ⟨habove, hsame ▸ hnone, rfl⟩
      · rcases h place hsame with htarget | ⟨-, -, hfolder⟩
        · exact Or.inl htarget
        · simp [hnone] at hfolder
    next hold =>
      rw [if_neg hold]
      exact h place hne

/-- On the way to a place a disk has nothing but new folders in front of it. -/
def Spares (start : Disk) (target : Path) (d : Disk) : Prop :=
  ∀ place, place <+: target → d.node? place ≠ start.node? place →
    place ≠ target ∧ start.node? place = none ∧ d.node? place = some .folder

theorem ChangedAt.spares (h : start.ChangedAt targets d)
    (hapart : ∀ other ∈ targets, other.Apart target) : start.Spares target d := by
  intro place hplace hne
  rcases h place hne with hmem | ⟨⟨other, hother, habove⟩, hnone, hfolder⟩
  · exact absurd hplace (hapart place hmem).1
  · refine ⟨?_, hnone, hfolder⟩
    rintro rfl
    exact (hapart other hother).2 habove

/-! ### Merging -/

/-- A disk has what each of some others has changed since the start, and nothing else is changed,
but for a log file. -/
structure Merges (log : Option Path) (start : Disk) (parts : List Disk) (whole : Disk) :
    Prop where
  takes : ∀ place, log ≠ some place → ∀ part ∈ parts, part.node? place ≠ start.node? place →
    whole.node? place = part.node? place
  comes : ∀ place, log ≠ some place → whole.node? place ≠ start.node? place →
    ∃ part ∈ parts, whole.node? place = part.node? place

namespace Merges

/-- Whichever way some disks are merged, it comes to the same. -/
theorem node?_eq {parts : List Disk} {other : Disk} (h : Merges log start parts whole)
    (h' : Merges log start parts other) (hlog : log ≠ some place) :
    other.node? place = whole.node? place := by
  by_cases hwhole : whole.node? place = start.node? place
  · by_contra hne
    obtain ⟨part, hpart, hother⟩ := h'.comes place hlog (hwhole ▸ hne)
    have hchanged : part.node? place ≠ start.node? place := by
      rw [← hother, ← hwhole]
      exact hne
    exact hne (hother.trans (h.takes place hlog part hpart hchanged).symm)
  · obtain ⟨part, hpart, hsame⟩ := h.comes place hlog hwhole
    have hchanged : part.node? place ≠ start.node? place := hsame ▸ hwhole
    exact (h'.takes place hlog part hpart hchanged).trans hsame.symm

/-- On the way to a place that the others spare, the disk is like the one part. -/
theorem likeUpTo (h : Merges log start (before ++ part :: after) whole)
    (hspared : ∀ other ∈ before ++ after, start.Spares target other)
    (hlog : ∀ above, above <+: target → log ≠ some above) : part.LikeUpTo target whole := by
  intro place hplace
  by_cases hpart : part.node? place = start.node? place
  · by_cases hwhole : whole.node? place = start.node? place
    · exact Or.inl (hwhole.trans hpart.symm)
    · obtain ⟨found, hfound, hsame⟩ := h.comes place (hlog place hplace) hwhole
      rw [hsame] at hwhole
      rcases List.mem_cons.mp (List.perm_middle.mem_iff.mp hfound) with rfl | hother
      · exact absurd hpart hwhole
      · obtain ⟨hne, hnone, hfolder⟩ := hspared found hother place hplace hwhole
        exact Or.inr ⟨hne, hpart.trans hnone, hsame.trans hfolder⟩
  · exact Or.inl (h.takes place (hlog place hplace) part (by simp) hpart)

/-- A write on the one disk and on one of its parts leaves the disk merged. -/
theorem written (h : Merges log start (before ++ part :: after) whole)
    (hspared : ∀ other ∈ before ++ after, start.Spares (front ++ [name]) other)
    (hlog : ∀ above, above <+: front ++ [name] → log ≠ some above)
    (hpart : part.Written lead front name data part')
    (hwhole : whole.Written lead front name data whole') :
    Merges log start (before ++ part' :: after) whole' := by
  have hboth := (h.likeUpTo hspared hlog).node?_written hpart hwhole
  constructor
  · intro place hplace found hfound hne
    rcases List.mem_cons.mp (List.perm_middle.mem_iff.mp hfound) with rfl | hother
    · rcases hboth place with hsame | ⟨hkept, hkept'⟩
      · exact hsame
      · rw [hkept'] at hne ⊢
        rw [hkept]
        exact h.takes place hplace part (by simp) hne
    · -- what another part has changed is there already, and not where the write leads
      have hwas := h.takes place hplace found
        (List.perm_middle.mem_iff.mpr (List.mem_cons_of_mem _ hother)) hne
      have hlast : place ≠ front ++ [name] := by
        rintro rfl
        exact (hspared found hother _ List.prefix_rfl hne).1 rfl
      rw [hwhole.node?_eq hlast, if_neg, hwas]
      rintro ⟨hfront, -, hnone⟩
      obtain ⟨-, -, hfolder⟩ :=
        hspared found hother place (hfront.trans (List.prefix_append _ _)) hne
      simp [← hwas, hnone] at hfolder
  · intro place hplace hne
    rcases hboth place with hsame | ⟨hkept, hkept'⟩
    · exact ⟨part', by simp, hsame⟩
    · rw [hkept] at hne ⊢
      obtain ⟨found, hfound, hwas⟩ := h.comes place hplace hne
      rcases List.mem_cons.mp (List.perm_middle.mem_iff.mp hfound) with rfl | hother
      · exact ⟨part', by simp, hwas.trans hkept'.symm⟩
      · exact ⟨found, List.perm_middle.mem_iff.mpr (List.mem_cons_of_mem _ hother), hwas⟩

end Merges

end ArchiveExport.Disk
