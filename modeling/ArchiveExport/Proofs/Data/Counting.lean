import ArchiveExport.Proofs.Data.OrderedMap
import Mathlib

/-!
# Counting in ordered maps

A map that counts keys as they come has each key that came once, in the order of first coming, with
the number of times it came. The numbers sum up to the number of keys that came.
-/

namespace ArchiveExport.OrderedMap

variable {κ : Type} [DecidableEq κ] {m : OrderedMap κ Nat} {key k : κ} {keys : List κ}

/-- The map with one more of a key. -/
def countKey (m : OrderedMap κ Nat) (key : κ) : OrderedMap κ Nat :=
  m.alter key fun n => n.getD 0 + 1

theorem find?_countKey (m : OrderedMap κ Nat) (key k : κ) :
    (m.countKey key).find? k = if k = key then some ((m.find? key).getD 0 + 1) else m.find? k :=
  find?_alter m key _ k

/-- Each key has been counted as often as it came. -/
theorem getD_find?_foldl_countKey (m : OrderedMap κ Nat) (keys : List κ) (k : κ) :
    ((keys.foldl countKey m).find? k).getD 0 = (m.find? k).getD 0 + keys.count k := by
  induction keys generalizing m with
  | nil => rfl
  | cons key keys ih =>
      rw [List.foldl_cons, ih, find?_countKey]
      by_cases hk : k = key
      · subst hk
        rw [if_pos rfl, List.count_cons_self, Option.getD_some]
        omega
      · rw [if_neg hk, List.count_cons_of_ne (Ne.symm hk)]

/-- A key has a number once it has come. -/
theorem mem_keys_foldl_countKey_iff :
    k ∈ (keys.foldl countKey m).keys ↔ k ∈ m.keys ∨ k ∈ keys := by
  induction keys generalizing m with
  | nil => simp
  | cons key keys ih =>
      have hkey : k ∈ (m.countKey key).keys ↔ k = key ∨ k ∈ m.keys := by
        rw [mem_keys_iff_exists_find?, mem_keys_iff_exists_find?, find?_countKey]
        by_cases hk : k = key <;> simp [hk]
      rw [List.foldl_cons, ih, hkey, List.mem_cons]
      tauto

theorem nodup_keys_foldl_countKey (h : m.keys.Nodup) (keys : List κ) :
    (keys.foldl countKey m).keys.Nodup := by
  induction keys generalizing m with
  | nil => exact h
  | cons key keys ih => exact ih (nodup_keys_alter m key _ h)

/-- The count of keys that came. -/
def countOf (keys : List κ) : OrderedMap κ Nat :=
  keys.foldl countKey empty

theorem mem_keys_countOf_iff : k ∈ (countOf keys).keys ↔ k ∈ keys :=
  mem_keys_foldl_countKey_iff.trans (or_iff_right List.not_mem_nil)

theorem nodup_keys_countOf (keys : List κ) : (countOf keys).keys.Nodup :=
  nodup_keys_foldl_countKey (m := empty) List.nodup_nil keys

theorem getD_find?_countOf (keys : List κ) (k : κ) :
    ((countOf keys).find? k).getD 0 = keys.count k :=
  (getD_find?_foldl_countKey empty keys k).trans (Nat.zero_add _)

theorem find?_countOf (keys : List κ) (k : κ) :
    (countOf keys).find? k = if k ∈ keys then some (keys.count k) else none := by
  have hcount := getD_find?_countOf keys k
  by_cases hk : k ∈ keys
  · obtain ⟨n, hn⟩ := mem_keys_iff_exists_find?.mp (mem_keys_countOf_iff.mpr hk)
    rw [hn, Option.getD_some] at hcount
    rw [hn, if_pos hk, hcount]
  · rw [if_neg hk, find?_eq_none_iff, mem_keys_countOf_iff]
    exact hk

/-- The values of a map are what is found under its keys. -/
theorem values_eq_map_keys (h : m.keys.Nodup) :
    m.values = m.keys.map fun key => (m.find? key).getD 0 := by
  rw [values, OrderedMap.keys, List.map_map]
  refine List.map_congr_left fun e he => ?_
  rw [Function.comp_apply, find?_of_mem_entries h he, Option.getD_some]

/-- All that came is counted. -/
theorem sum_values_countOf (keys : List κ) : (countOf keys).values.sum = keys.length := by
  have hmem (k : κ) : k ∈ (countOf keys).keys ↔ k ∈ keys.dedup :=
    mem_keys_countOf_iff.trans List.mem_dedup.symm
  have hperm := (List.perm_ext_iff_of_nodup (nodup_keys_countOf keys) keys.nodup_dedup).mpr hmem
  have hvalues : (countOf keys).values = (countOf keys).keys.map fun k => keys.count k := by
    rw [values_eq_map_keys (nodup_keys_countOf keys)]
    exact List.map_congr_left fun k _ => getD_find?_countOf keys k
  rw [hvalues, (hperm.map fun k => keys.count k).sum_nat, List.sum_map_count_dedup_eq_length]

end ArchiveExport.OrderedMap
