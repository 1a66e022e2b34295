import ArchiveExport.Data.OrderedMap
import Mathlib.Data.List.Nodup

/-!
# Finding and changing values of ordered maps

What is found under a key after each operation, and that no operation gives a key twice.
-/

namespace ArchiveExport.OrderedMap

variable {κ α : Type} [DecidableEq κ] {m : OrderedMap κ α} {key k : κ} {value : α}

/-! ### Keys -/

theorem find?_eq_none_iff : m.find? key = none ↔ key ∉ m.keys := by
  rw [find?, Option.map_eq_none_iff, List.find?_eq_none]
  simp only [decide_eq_true_eq]
  constructor
  · intro h hmem
    obtain ⟨e, he, hkey⟩ := List.mem_map.mp hmem
    exact h e he hkey
  · rintro h e he rfl
    exact h (List.mem_map_of_mem he)

theorem mem_keys_iff_exists_find? : key ∈ m.keys ↔ ∃ value, m.find? key = some value := by
  rw [← Option.isSome_iff_exists, ← not_iff_not, ← find?_eq_none_iff]
  simp

theorem mem_keys_of_find? (h : m.find? key = some value) : key ∈ m.keys :=
  mem_keys_iff_exists_find?.mpr ⟨value, h⟩

theorem mem_entries_of_find? (h : m.find? key = some value) : (key, value) ∈ m.entries := by
  obtain ⟨e, he, rfl⟩ := Option.map_eq_some_iff.mp h
  have hkey := List.find?_some he
  simp only [decide_eq_true_eq] at hkey
  exact hkey ▸ List.mem_of_find?_eq_some he

/-- Where no key is listed twice, every pair that is listed is found. -/
theorem find?_of_mem_entries (hm : m.keys.Nodup) (h : (key, value) ∈ m.entries) :
    m.find? key = some value := by
  obtain ⟨found, hfound⟩ : ∃ found, m.find? key = some found :=
    mem_keys_iff_exists_find?.mp (List.mem_map_of_mem h)
  have hpair := List.inj_on_of_nodup_map hm (mem_entries_of_find? hfound) h rfl
  rw [hfound, (Prod.mk.inj hpair).2]

/-- What is found in the last pairs of a map is found in the map. -/
theorem find?_of_suffix {last : List (κ × α)} (hm : m.keys.Nodup) (hlast : last <:+ m.entries)
    (h : (OrderedMap.mk last).find? key = some value) : m.find? key = some value :=
  find?_of_mem_entries hm (hlast.subset (mem_entries_of_find? h))

/-- Two maps with the same keys in the same order, under which they have the same values, are the
same map. -/
theorem eq_of_find?_eq {m' : OrderedMap κ α} (hm : m.keys.Nodup) (hkeys : m.keys = m'.keys)
    (h : ∀ key ∈ m.keys, m.find? key = m'.find? key) : m = m' := by
  have hm' : m'.keys.Nodup := hkeys ▸ hm
  have hlength : m.entries.length = m'.entries.length := by
    simpa [keys] using congrArg List.length hkeys
  have hentries : m.entries = m'.entries := by
    refine List.ext_getElem hlength fun i hi hi' => ?_
    have hkey : m.entries[i].1 = m'.entries[i].1 := by
      have hget := List.getElem_of_eq hkeys (i := i) (by simpa [keys] using hi)
      simpa [keys] using hget
    have hfound : m.find? m.entries[i].1 = some m.entries[i].2 :=
      find?_of_mem_entries hm (List.getElem_mem hi)
    have hfound' : m'.find? m'.entries[i].1 = some m'.entries[i].2 :=
      find?_of_mem_entries hm' (List.getElem_mem hi')
    rw [h _ (List.mem_map_of_mem (List.getElem_mem hi)), hkey, hfound'] at hfound
    exact Prod.ext hkey (Option.some.inj hfound).symm
  cases m
  cases m'
  exact congrArg OrderedMap.mk hentries

/-! ### Single changes -/

/-- A value in place of another leaves the keys as they are. -/
theorem keys_insert_of_mem (h : key ∈ m.keys) (value : α) : (m.insert key value).keys = m.keys := by
  rw [insert, keys_alter, if_pos ((contains_iff_mem_keys m key).mpr h)]

theorem find?_alter (m : OrderedMap κ α) (key : κ) (f : Option α → α) (k : κ) :
    (m.alter key f).find? k = if k = key then some (f (m.find? key)) else m.find? k := by
  by_cases hmem : m.contains key = true
  · obtain ⟨found, hfound⟩ := mem_keys_iff_exists_find?.mp ((contains_iff_mem_keys m key).mp hmem)
    rw [alter, if_pos hmem, hfound]
    have hfst : ∀ e : κ × α, (if e.1 = key then (key, f (some e.2)) else e).1 = e.1 := by
      intro e
      by_cases he : e.1 = key <;> simp [he]
    simp only [find?, List.find?_map, Option.map_map, Function.comp_def, hfst]
    by_cases hk : k = key
    · subst hk
      obtain ⟨e, he, rfl⟩ := Option.map_eq_some_iff.mp hfound
      have hkey := List.find?_some he
      simp only [decide_eq_true_eq] at hkey
      simp [he, hkey]
    · rw [if_neg hk]
      refine Option.map_congr fun e he => ?_
      have hkey := List.find?_some he
      simp only [decide_eq_true_eq] at hkey
      rw [if_neg (hkey ▸ hk)]
  · have hnone : m.find? key = none :=
      find?_eq_none_iff.mpr fun h => hmem ((contains_iff_mem_keys m key).mpr h)
    rw [alter, if_neg hmem, hnone]
    simp only [find?, List.find?_append]
    by_cases hk : k = key
    · subst hk
      simp only [find?, Option.map_eq_none_iff] at hnone
      simp [hnone]
    · simp [hk, Ne.symm hk]

theorem find?_insert (m : OrderedMap κ α) (key : κ) (value : α) (k : κ) :
    (m.insert key value).find? k = if k = key then some value else m.find? k :=
  find?_alter m key _ k

theorem mem_keys_insert_iff : k ∈ (m.insert key value).keys ↔ k = key ∨ k ∈ m.keys := by
  rw [mem_keys_iff_exists_find?, mem_keys_iff_exists_find?, find?_insert]
  by_cases hk : k = key <;> simp [hk]

theorem nodup_keys_insert (hm : m.keys.Nodup) (key : κ) (value : α) :
    (m.insert key value).keys.Nodup :=
  nodup_keys_alter m key _ hm

/-- A new key comes last. -/
theorem entries_insert_of_not_mem (h : key ∉ m.keys) (value : α) :
    (m.insert key value).entries = m.entries ++ [(key, value)] := by
  rw [← contains_iff_mem_keys] at h
  rw [insert, alter, if_neg h]

theorem find?_erase (m : OrderedMap κ α) (key k : κ) :
    (m.erase key).find? k = if k = key then none else m.find? k := by
  simp only [erase, find?, List.find?_filter]
  by_cases hk : k = key
  · subst hk
    simp
  · rw [if_neg hk]
    congr 2
    funext e
    by_cases he : e.1 = k
    · simp [he, hk]
    · simp [he]

/-- Of a value that is removed again nothing is left. -/
theorem erase_insert (m : OrderedMap κ α) (key : κ) (value : α) :
    (m.insert key value).erase key = m.erase key := by
  have hkeep : ∀ entries : List (κ × α),
      (entries.map fun e => if e.1 = key then (key, value) else e).filter (¬ ·.1 = key) =
        entries.filter (¬ ·.1 = key) := by
    intro entries
    induction entries with
    | nil => rfl
    | cons e entries ih =>
        rw [List.map_cons, List.filter_cons, List.filter_cons, ih]
        by_cases hkey : e.1 = key <;> simp [hkey]
  rw [insert, alter]
  split
  · exact congrArg OrderedMap.mk (hkeep m.entries)
  · simp [erase]

theorem nodup_keys_erase (hm : m.keys.Nodup) (key : κ) : (m.erase key).keys.Nodup :=
  hm.sublist (List.filter_sublist.map Prod.fst)

/-! ### Lists of pairs -/

/-- The last pair of a key decides. -/
theorem find?_insertAll (m : OrderedMap κ α) (pairs : List (κ × α)) (k : κ) :
    (m.insertAll pairs).find? k =
      ((pairs.reverse.find? fun e => e.1 = k).map Prod.snd).or (m.find? k) := by
  induction pairs generalizing m with
  | nil => rfl
  | cons e pairs ih =>
      have hstep : m.insertAll (e :: pairs) = (m.insert e.1 e.2).insertAll pairs := rfl
      rw [hstep, ih, find?_insert, List.reverse_cons, List.find?_append]
      cases pairs.reverse.find? fun e => e.1 = k with
      | some found => rfl
      | none =>
          by_cases hk : k = e.1
          · simp [hk]
          · simp [hk, Ne.symm hk]

theorem find?_ofList (pairs : List (κ × α)) (k : κ) :
    (ofList pairs).find? k = (pairs.reverse.find? fun e => e.1 = k).map Prod.snd := by
  rw [ofList, find?_insertAll]
  exact Option.or_none

/-- Where no key is listed twice, the pairs of a map spell it out. -/
theorem find?_ofList_entries (hm : m.keys.Nodup) (key : κ) :
    (ofList m.entries).find? key = m.find? key := by
  have hreversed : (OrderedMap.mk m.entries.reverse).keys.Nodup := by
    rw [keys, List.map_reverse, List.nodup_reverse]
    exact hm
  have hlast : (ofList m.entries).find? key = (OrderedMap.mk m.entries.reverse).find? key :=
    find?_ofList m.entries key
  rw [hlast]
  refine Option.ext fun value => ⟨fun h => ?_, fun h => ?_⟩
  · exact find?_of_mem_entries hm (List.mem_reverse.mp (mem_entries_of_find? h))
  · exact find?_of_mem_entries hreversed (List.mem_reverse.mpr (mem_entries_of_find? h))

theorem mem_of_find?_ofList {pairs : List (κ × α)} (h : (ofList pairs).find? key = some value) :
    (key, value) ∈ pairs := by
  rw [find?_ofList] at h
  obtain ⟨e, he, rfl⟩ := Option.map_eq_some_iff.mp h
  have hkey := List.find?_some he
  simp only [decide_eq_true_eq] at hkey
  exact hkey ▸ List.mem_reverse.mp (List.mem_of_find?_eq_some he)

/-- Every key of a list of pairs comes from one of them. -/
theorem mem_keys_ofList {pairs : List (κ × α)} (h : key ∈ (ofList pairs).keys) :
    ∃ value, (key, value) ∈ pairs := by
  obtain ⟨value, hvalue⟩ := mem_keys_iff_exists_find?.mp h
  exact ⟨value, mem_of_find?_ofList hvalue⟩

/-- A pair is found unless a later pair has its key. -/
theorem find?_ofList_append_cons {before after : List (κ × α)}
    (h : ∀ e ∈ after, e.1 ≠ key) :
    (ofList (before ++ (key, value) :: after)).find? key = some value := by
  have hafter : (after.reverse.find? fun e => e.1 = key) = none := by
    rw [List.find?_eq_none]
    intro e he
    simpa using h e (List.mem_reverse.mp he)
  rw [find?_ofList]
  simp [hafter]

theorem nodup_keys_insertAll (hm : m.keys.Nodup) (pairs : List (κ × α)) :
    (m.insertAll pairs).keys.Nodup := by
  induction pairs generalizing m with
  | nil => exact hm
  | cons e pairs ih => exact ih (nodup_keys_insert hm e.1 e.2)

theorem nodup_keys_ofList (pairs : List (κ × α)) : (ofList pairs).keys.Nodup :=
  nodup_keys_insertAll (m := empty) List.nodup_nil pairs

theorem mem_of_mem_entries_ofList {pairs : List (κ × α)} {e : κ × α}
    (h : e ∈ (ofList pairs).entries) : e ∈ pairs :=
  mem_of_find?_ofList (find?_of_mem_entries (nodup_keys_ofList pairs) h)

/-- Pairs whose keys are all different are the pairs of the map that they spell out. -/
theorem entries_ofList_of_nodup {pairs : List (κ × α)} (h : (pairs.map Prod.fst).Nodup) :
    (ofList pairs).entries = pairs := by
  have hinsert (m : OrderedMap κ α) (hkeys : (m.keys ++ pairs.map Prod.fst).Nodup) :
      (m.insertAll pairs).entries = m.entries ++ pairs := by
    clear h
    induction pairs generalizing m with
    | nil => exact (List.append_nil _).symm
    | cons e pairs ih =>
        have hnew : e.1 ∉ m.keys :=
          fun hmem => (List.nodup_append.mp hkeys).2.2 e.1 hmem e.1 List.mem_cons_self rfl
        have hstep := entries_insert_of_not_mem hnew e.2
        have hrest := ih (m.insert e.1 e.2) (by
          rw [keys, hstep, List.map_append, List.append_assoc]
          exact hkeys)
        have hcons : m.insertAll (e :: pairs) = (m.insert e.1 e.2).insertAll pairs := rfl
        rw [hcons, hrest, hstep, List.append_assoc, List.singleton_append]
  exact hinsert empty h

end ArchiveExport.OrderedMap
