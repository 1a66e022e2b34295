import ArchiveExport.Archive.Grf.Cache
import ArchiveExport.Proofs.Data.OrderedMap

/-!
# What a cache holds

Looking data up and keeping more data change what a cache holds in two ways only: the least recently
read data may go, and the data that is kept comes.
-/

namespace ArchiveExport.Cache

variable {c : Cache} {key k : String} {data value : Bytes}

theorem lookup_eq_none_iff : c.lookup key = none ↔ c.entries.find? key = none := by
  rw [lookup]
  split
  next h => simp [h]
  next found h => simp [h]

/-- Looking a key up finds what is held under it, and leaves everything else as it is. -/
theorem find?_of_lookup {c' : Cache} (h : c.lookup key = some (data, c')) :
    c.entries.find? key = some data ∧ ∀ k, c'.entries.find? k = c.entries.find? k := by
  rw [lookup] at h
  split at h
  next hnone => simp at h
  next found hfound =>
    simp only [Option.some.injEq, Prod.mk.injEq] at h
    obtain ⟨rfl, rfl⟩ := h
    refine ⟨hfound, fun k => ?_⟩
    rw [OrderedMap.find?_insert, OrderedMap.find?_erase]
    by_cases hk : k = key
    · simp [hk, hfound]
    · simp [hk]

theorem nodup_keys_lookup {c' : Cache} (hc : c.entries.keys.Nodup)
    (h : c.lookup key = some (data, c')) : c'.entries.keys.Nodup := by
  rw [lookup] at h
  split at h
  next hnone => simp at h
  next found hfound =>
    simp only [Option.some.injEq, Prod.mk.injEq] at h
    obtain ⟨-, rfl⟩ := h
    exact OrderedMap.nodup_keys_insert (OrderedMap.nodup_keys_erase hc key) key found

/-- Room is made at the front. -/
theorem makeRoom_suffix (size : Nat) (limit : Int) (entries : List (String × Bytes))
    (current : Nat) : (makeRoom size limit entries current).1 <:+ entries := by
  induction entries generalizing current with
  | nil => exact List.suffix_refl _
  | cons e entries ih =>
      rw [makeRoom]
      split
      · exact (ih _).trans (List.suffix_cons e entries)
      · exact List.suffix_refl _

theorem store_of_lt (h : c.limit < data.length) : c.store key data = c := by
  rw [store, if_pos h]

/-- Data is kept as a new last pair behind some of the pairs there were, or not at all. -/
theorem entries_store (c : Cache) (key : String) (data : Bytes) :
    (c.store key data).entries = c.entries ∨
      ∃ kept, kept <:+ c.entries.entries ∧
        (c.store key data).entries = (OrderedMap.mk kept).insert key data := by
  rw [store]
  split
  · exact Or.inl rfl
  · exact Or.inr ⟨_, makeRoom_suffix data.length c.limit c.entries.entries c.size, rfl⟩

theorem nodup_keys_of_suffix {kept : List (String × Bytes)} (hc : c.entries.keys.Nodup)
    (hkept : kept <:+ c.entries.entries) : (OrderedMap.mk kept).keys.Nodup :=
  hc.sublist (hkept.sublist.map Prod.fst)

theorem nodup_keys_store (hc : c.entries.keys.Nodup) (key : String) (data : Bytes) :
    (c.store key data).entries.keys.Nodup := by
  rcases c.entries_store key data with h | ⟨kept, hkept, h⟩
  · rw [h]
    exact hc
  · rw [h]
    exact OrderedMap.nodup_keys_insert (nodup_keys_of_suffix hc hkept) key data

/-- What a cache holds behind keeping data is that data, or was held before. -/
theorem find?_of_find?_store (hc : c.entries.keys.Nodup)
    (h : (c.store key data).entries.find? k = some value) :
    (k = key ∧ value = data) ∨ c.entries.find? k = some value := by
  rcases c.entries_store key data with hstore | ⟨kept, hkept, hstore⟩
  · rw [hstore] at h
    exact Or.inr h
  · rw [hstore, OrderedMap.find?_insert] at h
    by_cases hk : k = key
    · rw [if_pos hk] at h
      exact Or.inl ⟨hk, (Option.some.inj h).symm⟩
    · rw [if_neg hk] at h
      exact Or.inr (OrderedMap.find?_of_suffix hc hkept h)

end ArchiveExport.Cache
