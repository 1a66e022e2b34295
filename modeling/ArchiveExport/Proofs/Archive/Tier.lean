import Mathlib.Data.List.Basic
import Mathlib.Data.List.Induction
import Mathlib.Tactic.ByContra

/-!
# Tiers

Sources with priorities are opened one after the other. Among those that have a key, the one of the
highest priority decides, the latest opened among equals, and in it the last occurrence of the key.
Looking at one source after the other comes to this.
-/

namespace ArchiveExport

/-- What a source has under its keys, in its order. -/
structure Tier (α : Type) where
  priority : Int
  pairs : List (String × α)

namespace Tier

variable {α : Type} {tier d l : Tier α} {tiers : List (Tier α)} {key : String} {value : α}

/-- The last value under a key. -/
def last? (tier : Tier α) (key : String) : Option α :=
  (tier.pairs.reverse.find? fun pair => pair.1 = key).map Prod.snd

/-- A tier has a key, each tier in front of it that has the key is of no higher priority, and each
one behind it is of a lower one. -/
def Decides (tiers : List (Tier α)) (key : String) (tier : Tier α) : Prop :=
  ∃ before after, tiers = before ++ tier :: after ∧ (tier.last? key).isSome ∧
    (∀ l ∈ before, (l.last? key).isSome → l.priority ≤ tier.priority) ∧
    ∀ l ∈ after, (l.last? key).isSome → l.priority < tier.priority

/-- What is found under a key once one more tier is open, by what was found before. -/
def overlay (priorityOf : α → Int) (key : String) (current : Option α) (tier : Tier α) : Option α :=
  match tier.last? key with
  | none => current
  | some value => if current.all (priorityOf · ≤ tier.priority) then some value else current

theorem mem_pairs_of_last? (h : tier.last? key = some value) : (key, value) ∈ tier.pairs := by
  obtain ⟨pair, hpair, rfl⟩ := Option.map_eq_some_iff.mp h
  have hkey : pair.1 = key := by simpa using List.find?_some hpair
  rw [← hkey]
  exact List.mem_reverse.mp (List.mem_of_find?_eq_some hpair)

theorem last?_concat (priority : Int) (pairs : List (String × α)) (pair : String × α)
    (key : String) :
    (Tier.mk priority (pairs ++ [pair])).last? key =
      if pair.1 = key then some pair.2 else (Tier.mk priority pairs).last? key := by
  simp only [last?, List.reverse_append, List.reverse_singleton, List.singleton_append,
    List.find?_cons]
  by_cases hkey : pair.1 = key <;> simp [hkey]

theorem Decides.le (h : Decides tiers key d) (hl : l ∈ tiers) (hkey : (l.last? key).isSome) :
    l.priority ≤ d.priority := by
  obtain ⟨before, after, rfl, -, hbefore, hafter⟩ := h
  rcases List.mem_append.mp hl with hfront | hrest
  · exact hbefore l hfront hkey
  · rcases List.mem_cons.mp hrest with rfl | hback
    · exact Int.le_refl _
    · exact Int.le_of_lt (hafter l hback hkey)

theorem decides_concat :
    Decides (tiers ++ [l]) key d ↔
      (d = l ∧ (l.last? key).isSome ∧
        ∀ m ∈ tiers, (m.last? key).isSome → m.priority ≤ l.priority) ∨
      (Decides tiers key d ∧ ((l.last? key).isSome → l.priority < d.priority)) := by
  constructor
  · rintro ⟨before, after, hsplit, hkey, hbefore, hafter⟩
    rcases List.eq_nil_or_concat' after with rfl | ⟨front, last, rfl⟩
    · obtain ⟨rfl, hlast⟩ := List.append_inj' hsplit rfl
      obtain rfl := List.head_eq_of_cons_eq hlast
      exact Or.inl ⟨rfl, hkey, hbefore⟩
    · rw [← List.cons_append, ← List.append_assoc] at hsplit
      obtain ⟨rfl, hlast⟩ := List.append_inj' hsplit rfl
      obtain rfl := List.head_eq_of_cons_eq hlast
      refine Or.inr ⟨⟨before, front, rfl, hkey, hbefore, fun m hm => ?_⟩, ?_⟩
      · exact hafter m (List.mem_append_left _ hm)
      · exact hafter l (List.mem_append_right _ List.mem_cons_self)
  · rintro (⟨rfl, hkey, hall⟩ | ⟨⟨before, after, rfl, hkey, hbefore, hafter⟩, hlast⟩)
    · exact ⟨tiers, [], rfl, hkey, hall, by simp⟩
    · refine ⟨before, after ++ [l], by simp, hkey, hbefore, fun m hm => ?_⟩
      rcases List.mem_append.mp hm with hold | hnew
      · exact hafter m hold
      · rw [List.mem_singleton] at hnew
        exact hnew ▸ hlast

theorem Decides.mem (h : Decides tiers key d) : d ∈ tiers := by
  obtain ⟨before, after, rfl, -⟩ := h
  exact List.mem_append_right _ List.mem_cons_self

theorem Decides.isSome (h : Decides tiers key d) : (d.last? key).isSome := by
  obtain ⟨before, after, -, hkey, -⟩ := h
  exact hkey

/-- Behind tiers one of which decides, a tier that has the key decides unless its priority is
lower. -/
theorem decides_concat_of_decides {e : Tier α} (hd : Decides tiers key d)
    (hlast : (l.last? key).isSome) :
    Decides (tiers ++ [l]) key e ↔
      if d.priority ≤ l.priority then e = l else Decides tiers key e := by
  rw [decides_concat]
  split
  next hle =>
    constructor
    · rintro (⟨rfl, -⟩ | ⟨he, hless⟩)
      · rfl
      · have habove := hless hlast
        have hbelow := hd.le he.mem he.isSome
        omega
    · rintro rfl
      exact Or.inl ⟨rfl, hlast, fun m hm hkey => Int.le_trans (hd.le hm hkey) hle⟩
  next hnot =>
    constructor
    · rintro (⟨rfl, -, hall⟩ | ⟨he, -⟩)
      · exact absurd (hall d hd.mem hd.isSome) hnot
      · exact he
    · intro he
      have habove := he.le hd.mem hd.isSome
      exact Or.inr ⟨he, fun _ => by omega⟩

/-- Where some tier has a key, one decides about it. -/
theorem exists_decides (hl : l ∈ tiers) (hkey : (l.last? key).isSome) :
    ∃ d, Decides tiers key d := by
  induction tiers using List.reverseRecOn generalizing l with
  | nil => simp at hl
  | append_singleton tiers last ih =>
      by_cases hall : (last.last? key).isSome ∧
          ∀ m ∈ tiers, (m.last? key).isSome → m.priority ≤ last.priority
      · exact ⟨last, decides_concat.mpr (Or.inl ⟨rfl, hall⟩)⟩
      · have hbefore : ∃ m ∈ tiers, (m.last? key).isSome ∧
            ((last.last? key).isSome → last.priority < m.priority) := by
          by_cases hlast : (last.last? key).isSome
          · by_contra hnone
            refine hall ⟨hlast, fun m hm hmkey => Int.not_lt.mp fun hless => hnone ?_⟩
            exact ⟨m, hm, hmkey, fun _ => hless⟩
          · rcases List.mem_append.mp hl with hold | hnew
            · exact ⟨l, hold, hkey, fun h => absurd h hlast⟩
            · rw [List.mem_singleton] at hnew
              exact absurd (hnew ▸ hkey) hlast
        obtain ⟨m, hm, hmkey, hless⟩ := hbefore
        obtain ⟨d, hd⟩ := ih hm hmkey
        refine ⟨d, decides_concat.mpr (Or.inr ⟨hd, fun hlast => ?_⟩)⟩
        exact Int.lt_of_lt_of_le (hless hlast) (hd.le hm hmkey)

/-- Tiers that are opened one after the other leave under each key the value that it has in the
tier that decides about it. -/
theorem foldl_overlay_eq_some_iff {priorityOf : α → Int}
    (hlabel : ∀ tier ∈ tiers, ∀ pair ∈ tier.pairs, priorityOf pair.2 = tier.priority) :
    tiers.foldl (overlay priorityOf key) none = some value ↔
      ∃ tier, Decides tiers key tier ∧ tier.last? key = some value := by
  -- from the end of the list, where the tier that comes last is laid over the others
  induction tiers using List.reverseRecOn generalizing value with
  | nil => simp [Decides]
  | append_singleton tiers l ih =>
      have hlabels : ∀ tier ∈ tiers, ∀ pair ∈ tier.pairs, priorityOf pair.2 = tier.priority :=
        fun tier htier => hlabel tier (List.mem_append_left _ htier)
      have hfound : ∀ {v : α}, tiers.foldl (overlay priorityOf key) none = some v ↔
          ∃ tier, Decides tiers key tier ∧ tier.last? key = some v := ih hlabels
      rw [List.foldl_append, List.foldl_cons, List.foldl_nil, overlay]
      cases hlast : l.last? key with
      | none => simp [hfound, decides_concat, hlast]
      | some new =>
          cases hcurrent : tiers.foldl (overlay priorityOf key) none with
          | none =>
              have hnone : ∀ m ∈ tiers, ¬ (m.last? key).isSome := by
                intro m hm hkey
                obtain ⟨d, hd⟩ := exists_decides hm hkey
                obtain ⟨v, hv⟩ := Option.isSome_iff_exists.mp hd.isSome
                rw [hfound.mpr ⟨d, hd, hv⟩] at hcurrent
                cases hcurrent
              have hdecides : ∀ tier, Decides (tiers ++ [l]) key tier ↔ tier = l := by
                intro tier
                rw [decides_concat]
                constructor
                · rintro (⟨rfl, -⟩ | ⟨htier, -⟩)
                  · rfl
                  · exact absurd htier.isSome (hnone tier htier.mem)
                · rintro rfl
                  exact Or.inl ⟨rfl, by simp [hlast], fun m hm hkey => absurd hkey (hnone m hm)⟩
              simp [hdecides, hlast]
          | some old =>
              obtain ⟨d, hd, hold⟩ := hfound.mp hcurrent
              have hpriority : priorityOf old = d.priority :=
                hlabels d hd.mem _ (mem_pairs_of_last? hold)
              have hsome : (l.last? key).isSome := by simp [hlast]
              simp only [Option.all_some, hpriority, decide_eq_true_eq,
                decides_concat_of_decides hd hsome]
              split
              · simp [hlast]
              · rw [← hcurrent, hfound]

/-- The tier with other values. -/
def map {β : Type} (f : α → β) (tier : Tier α) : Tier β :=
  ⟨tier.priority, tier.pairs.map fun pair => (pair.1, f pair.2)⟩

theorem last?_map {β : Type} (f : α → β) (tier : Tier α) (key : String) :
    (tier.map f).last? key = (tier.last? key).map f := by
  rw [last?, map, ← List.map_reverse, List.find?_map, Option.map_map, last?, Option.map_map]
  rfl

theorem overlay_map {β : Type} (priorityOf : β → Int) (f : α → β) (tier : Tier α) (key : String)
    (current : Option α) :
    (tier.map f).overlay priorityOf key (current.map f) =
      (tier.overlay (fun value => priorityOf (f value)) key current).map f := by
  rw [overlay, overlay, last?_map]
  cases tier.last? key with
  | none => rfl
  | some value =>
      have hpriority : (tier.map f).priority = tier.priority := rfl
      rw [Option.map_some, hpriority]
      cases current with
      | none => rfl
      | some old => by_cases hle : priorityOf (f old) ≤ tier.priority <;> simp [hle]

end Tier

end ArchiveExport
