import ArchiveExport.Proofs.Archive.Cache

/-!
# The size that a cache gives

A cache keeps a count of the octets that it holds beside its data. Looking data up keeps the count
right. Keeping data under a key that is still held when room has been made loses the old data but
not its size, and this is the only way in which the count goes wrong.
-/

namespace ArchiveExport

/-! ### The size of the data under all keys -/

namespace OrderedMap

variable {m : OrderedMap String Bytes} {key : String} {data : Bytes}

/-- The number of octets under all keys. -/
def weight (m : OrderedMap String Bytes) : Nat :=
  m.entries.foldr (fun e octets => e.2.length + octets) 0

/-- The number of octets under a key, none where there is no data. -/
def weightAt (m : OrderedMap String Bytes) (key : String) : Nat :=
  ((m.find? key).getD []).length

@[simp] theorem weight_mk_nil : (OrderedMap.mk (κ := String) (α := Bytes) []).weight = 0 := rfl

@[simp] theorem weight_mk_cons (e : String × Bytes) (entries : List (String × Bytes)) :
    (OrderedMap.mk (e :: entries)).weight = e.2.length + (OrderedMap.mk entries).weight := rfl

theorem weight_mk_singleton (key : String) (data : Bytes) :
    (OrderedMap.mk [(key, data)]).weight = data.length := by
  rw [weight_mk_cons, weight_mk_nil, Nat.add_zero]

theorem weightAt_of_find? (h : m.find? key = some data) : m.weightAt key = data.length := by
  rw [weightAt, h, Option.getD_some]

theorem weightAt_of_not_mem (h : key ∉ m.keys) : m.weightAt key = 0 := by
  rw [weightAt, find?_eq_none_iff.mpr h]
  rfl

/-- What is removed weighs as much as the data under its key did. -/
theorem weight_erase_add (hm : m.keys.Nodup) (key : String) :
    (m.erase key).weight + m.weightAt key = m.weight := by
  obtain ⟨entries⟩ := m
  induction entries with
  | nil => rfl
  | cons e entries ih =>
      obtain ⟨hfresh, hrest⟩ := List.nodup_cons.mp hm
      have hsplit := ih hrest
      by_cases he : e.1 = key
      · -- no later pair has the key, so nothing else is removed
        have herase : (OrderedMap.mk (e :: entries)).erase key =
            (OrderedMap.mk entries).erase key := by simp [erase, he]
        have hat : (OrderedMap.mk (e :: entries)).weightAt key = e.2.length :=
          weightAt_of_find? (by simp [find?, he])
        have hnone : (OrderedMap.mk entries).weightAt key = 0 :=
          weightAt_of_not_mem (he ▸ hfresh)
        rw [herase, hat, weight_mk_cons]
        omega
      · have herase : ((OrderedMap.mk (e :: entries)).erase key).weight =
            e.2.length + ((OrderedMap.mk entries).erase key).weight := by simp [weight, erase, he]
        have hat : (OrderedMap.mk (e :: entries)).weightAt key =
            (OrderedMap.mk entries).weightAt key := by simp [weightAt, find?, he]
        rw [herase, hat, weight_mk_cons]
        omega

/-- Data that is set adds its size, and the data in whose place it stands no longer counts. -/
theorem weight_insert_add (hm : m.keys.Nodup) (key : String) (data : Bytes) :
    (m.insert key data).weight + m.weightAt key = m.weight + data.length := by
  have hafter := weight_erase_add (nodup_keys_insert hm key data) key
  have hbefore := weight_erase_add hm key
  rw [erase_insert, weightAt_of_find? (by rw [find?_insert, if_pos rfl])] at hafter
  omega

end OrderedMap

namespace Cache

open OrderedMap

variable {c : Cache} {key : String} {data : Bytes}

/-- The count is right and within the limit. -/
structure Intact (c : Cache) : Prop where
  size_eq : c.size = c.entries.weight
  size_le : c.size ≤ c.limit

/-- What is still held when room has been made for data. -/
def remains (c : Cache) (data : Bytes) : OrderedMap String Bytes :=
  ⟨(makeRoom data.length c.limit c.entries.entries c.size).1⟩

/-- Data is small enough to be kept, and octets under its key are still held when room has been
made for it. -/
def Replaces (c : Cache) (key : String) (data : Bytes) : Prop :=
  data.length ≤ c.limit ∧ (c.remains data).weightAt key ≠ 0

instance (c : Cache) (key : String) (data : Bytes) : Decidable (c.Replaces key data) :=
  inferInstanceAs (Decidable (_ ∧ _))

theorem intact_clear (hlimit : 0 ≤ c.limit) : c.clear.Intact where
  size_eq := rfl
  size_le := hlimit

/-! ### Looking data up -/

theorem limit_lookup {c' : Cache} (h : c.lookup key = some (data, c')) : c'.limit = c.limit := by
  rw [lookup] at h
  split at h
  next => simp at h
  next found hfound =>
    simp only [Option.some.injEq, Prod.mk.injEq] at h
    rw [← h.2]

theorem intact_lookup {c' : Cache} (hnodup : c.entries.keys.Nodup) (hc : c.Intact)
    (h : c.lookup key = some (data, c')) : c'.Intact := by
  rw [lookup] at h
  split at h
  next => simp at h
  next found hfound =>
    simp only [Option.some.injEq, Prod.mk.injEq] at h
    obtain ⟨rfl, rfl⟩ := h
    -- the data leaves its place, and what is added at the end weighs the same
    have hout := weight_erase_add hnodup key
    have hin := weight_insert_add (nodup_keys_erase hnodup key) key found
    have habsent : (c.entries.erase key).weightAt key = 0 := by
      rw [weightAt, find?_erase, if_pos rfl]
      rfl
    rw [weightAt_of_find? hfound] at hout
    exact {
      size_eq := by
        have hsize := hc.size_eq
        change c.size = ((c.entries.erase key).insert key found).weight
        omega
      size_le := hc.size_le }

/-! ### Keeping data -/

/-- Making room keeps the count right, and stops where the new data fits or nothing is left. -/
theorem makeRoom_size (size : Nat) (limit : Int) (entries : List (String × Bytes)) :
    (makeRoom size limit entries (OrderedMap.mk entries).weight).2 =
        (OrderedMap.mk (makeRoom size limit entries (OrderedMap.mk entries).weight).1).weight ∧
      ((makeRoom size limit entries (OrderedMap.mk entries).weight).1 = [] ∨
        ((makeRoom size limit entries (OrderedMap.mk entries).weight).2 + size : Nat) ≤ limit) := by
  induction entries with
  | nil => exact ⟨rfl, Or.inl rfl⟩
  | cons e entries ih =>
      rw [makeRoom, weight_mk_cons, Nat.add_sub_cancel_left]
      split
      next => exact ih
      next hfits => exact ⟨rfl, Or.inr (by push_cast at hfits ⊢; omega)⟩

theorem limit_store (c : Cache) (key : String) (data : Bytes) :
    (c.store key data).limit = c.limit := by
  rw [store]
  split <;> rfl

theorem size_le_store (hc : c.Intact) (key : String) (data : Bytes) :
    (c.store key data).size ≤ (c.store key data).limit := by
  rw [limit_store, store]
  split
  next => exact hc.size_le
  next hsmall =>
    rw [Int.not_lt] at hsmall
    obtain ⟨hcount, hroom⟩ := makeRoom_size data.length c.limit c.entries.entries
    rw [← hc.size_eq] at hcount hroom
    rcases hroom with hempty | hroom
    · rw [hempty, weight_mk_nil] at hcount
      simp only [hcount, Nat.zero_add]
      exact hsmall
    · exact hroom

/-- What fits is put behind the pairs that remain, and counted beside them. -/
theorem store_of_le (hc : c.Intact) (key : String) (h : data.length ≤ c.limit) :
    c.store key data = { c with
      entries := (c.remains data).insert key data
      size := (c.remains data).weight + data.length } := by
  have hcount := (makeRoom_size data.length c.limit c.entries.entries).1
  rw [← hc.size_eq] at hcount
  rw [store, if_neg (Int.not_lt.mpr h)]
  simp only [hcount]
  rfl

/-- Keeping data leaves the count right exactly when it replaces nothing. -/
theorem intact_store_iff (hnodup : c.entries.keys.Nodup) (hc : c.Intact) :
    (c.store key data).Intact ↔ ¬ c.Replaces key data := by
  by_cases hlarge : c.limit < data.length
  · rw [store_of_lt hlarge]
    exact iff_of_true hc fun hreplaces => absurd hreplaces.1 (by omega)
  · have hkept : (c.remains data).keys.Nodup :=
      nodup_keys_of_suffix hnodup (makeRoom_suffix _ _ _ _)
    have hweight := weight_insert_add hkept key data
    have hbound := size_le_store hc key data
    rw [store_of_le hc key (Int.not_lt.mp hlarge)] at hbound ⊢
    constructor
    · intro hintact hreplaces
      have hsize : (c.remains data).weight + data.length =
        ((c.remains data).insert key data).weight := hintact.size_eq
      exact hreplaces.2 (by omega)
    · intro hreplaces
      have hzero : (c.remains data).weightAt key = 0 := by
        by_contra hheld
        exact hreplaces ⟨by omega, hheld⟩
      exact {
        size_eq := by
          change (c.remains data).weight + data.length =
            ((c.remains data).insert key data).weight
          omega
        size_le := hbound }

/-- Data under a key that is not held replaces nothing. -/
theorem not_replaces_of_not_mem (hnodup : c.entries.keys.Nodup) (h : key ∉ c.entries.keys) :
    ¬ c.Replaces key data := by
  rintro ⟨-, hheld⟩
  apply hheld
  apply weightAt_of_not_mem
  intro hmem
  obtain ⟨found, hfound⟩ := mem_keys_iff_exists_find?.mp hmem
  exact h (mem_keys_of_find? (find?_of_suffix hnodup (makeRoom_suffix _ _ _ _) hfound))

end Cache

end ArchiveExport
