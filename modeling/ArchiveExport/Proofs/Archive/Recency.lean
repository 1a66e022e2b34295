import ArchiveExport.Proofs.Archive.Readers

/-!
# What a cache keeps

A cache lists its keys by their last read. A read that misses keeps what it has read and, of what
was there before, the longest part that was read last and leaves room for it. The counters of a
store add up what its reads met.
-/

namespace ArchiveExport

/-! ### Making room -/

namespace Cache

variable {limit : Int} {size : Nat} {c c' : Cache} {key : String} {data : Bytes}

/-- The longest last part of some pairs beside whose data so many octets fit. -/
structure IsLongestFit (limit : Int) (size : Nat) (entries kept : List (String × Bytes)) :
    Prop where
  suffix : kept <:+ entries
  fits : ((OrderedMap.mk kept).weight + size : Nat) ≤ limit
  longest : ∀ other, other <:+ entries →
    ((OrderedMap.mk other).weight + size : Nat) ≤ limit → other <:+ kept

/-- No more is dropped than has to be. -/
theorem isLongestFit_makeRoom (hsize : size ≤ limit) (entries : List (String × Bytes)) :
    IsLongestFit limit size entries
      (makeRoom size limit entries (OrderedMap.mk entries).weight).1 := by
  induction entries with
  | nil => exact ⟨List.suffix_refl _, by simpa [makeRoom] using hsize, fun _ hother _ => hother⟩
  | cons e entries ih =>
      obtain ⟨key, data⟩ := e
      rw [makeRoom, OrderedMap.weight_mk_cons, Nat.add_sub_cancel_left]
      split
      next hfull =>
        refine ⟨ih.suffix.trans (List.suffix_cons _ entries), ih.fits, fun other hother hfits => ?_⟩
        rcases List.suffix_cons_iff.mp hother with rfl | hother
        · rw [OrderedMap.weight_mk_cons] at hfits
          omega
        · exact ih.longest other hother hfits
      next hfits =>
        refine ⟨List.suffix_refl _, ?_, fun _ hother _ => hother⟩
        rw [OrderedMap.weight_mk_cons]
        omega

example : makeRoom 2 4 [("a", [1, 2]), ("b", []), ("c", [3]), ("d", [])] 3 =
    ([("b", []), ("c", [3]), ("d", [])], 1) := by decide

/-- Data that is looked up comes last. -/
theorem entries_lookup (h : c.lookup key = some (data, c')) :
    c'.entries.entries = (c.entries.erase key).entries ++ [(key, data)] := by
  rw [lookup] at h
  split at h
  next => simp at h
  next found hfound =>
    simp only [Option.some.injEq, Prod.mk.injEq] at h
    obtain ⟨rfl, rfl⟩ := h
    refine OrderedMap.entries_insert_of_not_mem ?_ found
    rw [← OrderedMap.find?_eq_none_iff, OrderedMap.find?_erase, if_pos rfl]

/-- New data comes last, behind the longest part of the others that leaves room for it. -/
theorem entries_store_of_not_mem (hc : c.Intact) (hkey : key ∉ c.entries.keys)
    (hdata : data.length ≤ c.limit) :
    ∃ kept, IsLongestFit c.limit data.length c.entries.entries kept ∧
      (c.store key data).entries.entries = kept ++ [(key, data)] := by
  have hfit := isLongestFit_makeRoom hdata c.entries.entries
  rw [← hc.size_eq] at hfit
  refine ⟨_, hfit, ?_⟩
  rw [store, if_neg (Int.not_lt.mpr hdata)]
  refine OrderedMap.entries_insert_of_not_mem (fun hmem => hkey ?_) data
  exact (hfit.suffix.sublist.map Prod.fst).subset hmem

end Cache

namespace Grf.Store

open Archive (Fault)

/-! ### The order of reads -/

variable {reads keys : List String} {key : String}

/-- The last read of `a` comes before the last read of `b`. -/
def LastReadBefore (reads : List String) (a b : String) : Prop :=
  ∃ past later, reads = past ++ later ∧ a ∈ past ∧ a ∉ later ∧ b ∈ later

/-- Keys that have been read, in the order of their last reads. -/
structure OrderedByLastRead (reads keys : List String) : Prop where
  read : ∀ key ∈ keys, key ∈ reads
  ordered : keys.Pairwise (LastReadBefore reads)

namespace OrderedByLastRead

theorem nil (reads : List String) : OrderedByLastRead reads [] := ⟨by simp, .nil⟩

theorem sublist {fewer : List String} (h : OrderedByLastRead reads keys)
    (hfewer : fewer.Sublist keys) : OrderedByLastRead reads fewer where
  read := fun key hkey => h.read key (hfewer.subset hkey)
  ordered := h.ordered.sublist hfewer

/-- A read of another key leaves the order as it is. -/
theorem of_not_mem (h : OrderedByLastRead reads keys) (hkey : key ∉ keys) :
    OrderedByLastRead (reads ++ [key]) keys where
  read := fun k hk => List.mem_append_left _ (h.read k hk)
  ordered := by
    refine h.ordered.imp_of_mem ?_
    rintro a b ha - ⟨past, later, rfl, hpast, hlater, hb⟩
    refine ⟨past, later ++ [key], List.append_assoc .., hpast, ?_, List.mem_append_left _ hb⟩
    rw [List.mem_append, List.mem_singleton, not_or]
    exact ⟨hlater, fun hsame => hkey (hsame ▸ ha)⟩

/-- A key that has just been read comes last. -/
theorem concat (h : OrderedByLastRead reads keys) (hkey : key ∉ keys) :
    OrderedByLastRead (reads ++ [key]) (keys ++ [key]) where
  read := by
    simp only [List.mem_append, List.mem_singleton]
    exact fun k hk => hk.imp_left (h.read k)
  ordered := by
    rw [List.pairwise_append]
    refine ⟨(h.of_not_mem hkey).ordered, List.pairwise_singleton .., fun a ha b hb => ?_⟩
    obtain rfl := List.mem_singleton.mp hb
    refine ⟨reads, [b], rfl, h.read a ha, ?_, List.mem_singleton_self b⟩
    rw [List.mem_singleton]
    exact fun hsame => hkey (hsame ▸ ha)

end OrderedByLastRead

/-! ### Reads that miss -/

variable {s : Store} {data : Bytes} {fault : Fault}

theorem lookup_eq_none_of_not_mem (h : normalize key ∉ s.cache.entries.keys) :
    s.cache.lookup (normalize key) = none :=
  Cache.lookup_eq_none_iff.mpr (OrderedMap.find?_eq_none_iff.mpr h)

theorem cache_read_of_not_mem (h : normalize key ∉ s.cache.entries.keys)
    (hread : (s.read key).1 = .ok data) :
    (s.read key).2.cache = s.cache.store (normalize key) data := by
  rw [read_of_lookup_eq_none (lookup_eq_none_of_not_mem h)] at hread ⊢
  simp only at hread
  rw [hread]
  rfl

/-- A read that fails leaves the cache alone. -/
theorem cache_read_of_error (hread : (s.read key).1 = .error fault) :
    (s.read key).2.cache = s.cache := by
  cases h : s.cache.lookup (normalize key) with
  | some found =>
      rw [read_of_lookup_eq_some h] at hread
      cases hread
  | none =>
      rw [read_of_lookup_eq_none h] at hread ⊢
      simp only at hread
      rw [hread]
      exact cache_keep_error _ _ fault

/-! ### Calls on disks that change -/

section Runs

variable {disk : Disk} {working : Path}

/-- The normalized key that a call reads. -/
def Call.key? : Call → Option String
  | .read key => some (normalize key)
  | _ => none

/-- Whether a call is a read. -/
def Call.isRead (call : Call) : Bool := call.key?.isSome

/-- Whether a call is a read whose key is not in the cache. -/
def Call.misses (s : Store) : Call → Bool
  | .read key => !s.cache.entries.contains (normalize key)
  | _ => false

/-- Whether a call is a read whose key is not in the cache, and that gets data. -/
def Call.loads (s : Store) : Call → Bool
  | .read key => Call.misses s (.read key) && (s.read key).1.isOk
  | _ => false

/-- The store behind some calls, each with the disk that there is at that time. -/
def runOn (working : Path) (s : Store) (calls : List (Disk × Call)) : Store :=
  calls.foldl (fun s call => after call.1 working s call.2) s

/-- The calls, each with the store that it is made on. -/
def met (working : Path) (s : Store) : List (Disk × Call) → List (Store × Call)
  | [] => []
  | call :: calls => (s, call.2) :: met working (after call.1 working s call.2) calls

theorem runOn_append_singleton (s : Store) (calls : List (Disk × Call)) (call : Disk × Call) :
    runOn working s (calls ++ [call]) = after call.1 working (runOn working s calls) call.2 := by
  simp [runOn]

theorem map_snd_met (working : Path) (s : Store) (calls : List (Disk × Call)) :
    (met working s calls).map Prod.snd = calls.map Prod.snd := by
  induction calls generalizing s with
  | nil => rfl
  | cons call calls ih => rw [met, List.map_cons, ih, List.map_cons]

/-- What holds behind every run: the count is right and within the limit, and the keys are in the
order of their reads. -/
structure Recent (limit : Int) (reads : List String) (s : Store) : Prop where
  limit_eq : s.cache.limit = limit
  wellKept : s.WellKept
  intact : s.cache.Intact
  keys : OrderedByLastRead reads s.cache.entries.keys

variable {limit : Int}

/-- What a read that misses leaves. -/
theorem Recent.entries_read (h : Recent limit reads s)
    (hkey : normalize key ∉ s.cache.entries.keys) (hread : (s.read key).1 = .ok data)
    (hdata : data.length ≤ limit) :
    ∃ kept, Cache.IsLongestFit limit data.length s.cache.entries.entries kept ∧
      (s.read key).2.cache.entries.entries = kept ++ [(normalize key, data)] := by
  obtain rfl := h.limit_eq
  rw [cache_read_of_not_mem hkey hread]
  exact Cache.entries_store_of_not_mem h.intact hkey hdata

theorem Recent.cache_read_of_lt (h : Recent limit reads s)
    (hkey : normalize key ∉ s.cache.entries.keys) (hread : (s.read key).1 = .ok data)
    (hdata : limit < data.length) : (s.read key).2.cache = s.cache := by
  obtain rfl := h.limit_eq
  rw [cache_read_of_not_mem hkey hread, Cache.store_of_lt hdata]

/-- A read puts its key at the end, unless it keeps nothing. -/
theorem Recent.keys_read (h : Recent limit reads s) (key : String) :
    OrderedByLastRead (reads ++ [normalize key]) (s.read key).2.cache.entries.keys := by
  cases hlookup : s.cache.lookup (normalize key) with
  | some found =>
      have hlast := congrArg (List.map Prod.fst) (Cache.entries_lookup hlookup)
      rw [read_of_lookup_eq_some hlookup, OrderedMap.keys, hlast, List.map_append]
      refine (h.keys.sublist (List.filter_sublist.map Prod.fst)).concat ?_
      simp
  | none =>
      have hkey := OrderedMap.find?_eq_none_iff.mp (Cache.lookup_eq_none_iff.mp hlookup)
      cases hread : (s.read key).1 with
      | error fault =>
          rw [cache_read_of_error hread]
          exact h.keys.of_not_mem hkey
      | ok data =>
          by_cases hdata : data.length ≤ limit
          · obtain ⟨kept, hkept, hentries⟩ := h.entries_read hkey hread hdata
            rw [OrderedMap.keys, hentries, List.map_append]
            have hfewer := hkept.suffix.sublist.map Prod.fst
            exact (h.keys.sublist hfewer).concat fun hmem => hkey (hfewer.subset hmem)
          · rw [h.cache_read_of_lt hkey hread (Int.not_le.mp hdata)]
            exact h.keys.of_not_mem hkey

theorem Recent.after (disk : Disk) (working : Path) (hlimit : 0 ≤ limit)
    (h : Recent limit reads s) (call : Call) :
    Recent limit (reads ++ call.key?.toList) (after disk working s call) where
  limit_eq := (limit_after s call).trans h.limit_eq
  wellKept := wellKept_after h.wellKept call
  intact := intact_after (by rwa [h.limit_eq]) h.wellKept.nodup h.intact call
  keys := by
    cases call with
    | openFile path priority =>
        rw [cache_openFile]
        simpa [Call.key?] using h.keys
    | read key => exact h.keys_read key
    | clearCache => exact .nil _
    | close => exact .nil _

theorem recent_runOn (working : Path) (hlimit : 0 ≤ limit) (calls : List (Disk × Call)) :
    Recent limit (calls.filterMap fun call => call.2.key?) (runOn working (new limit) calls) := by
  induction calls using List.reverseRecOn with
  | nil =>
      exact ⟨rfl, wellKept_new limit, Cache.intact_clear (c := { limit }) hlimit, .nil _⟩
  | append_singleton calls call ih =>
      have hafter := ih.after call.1 working hlimit call.2
      rw [runOn_append_singleton, List.filterMap_append]
      cases hkey : call.2.key? <;> simpa [hkey] using hafter

/-! ### Counting calls -/

/-- What goes up by one with certain calls counts these calls. -/
theorem count_runOn (counter : Store → Nat) (counted : Store → Call → Bool)
    (hstep : ∀ disk s call, counter (Store.after disk working s call) =
      counter s + if counted s call then 1 else 0) (s : Store) (calls : List (Disk × Call)) :
    counter (runOn working s calls) =
      counter s + (met working s calls).countP fun m => counted m.1 m.2 := by
  induction calls generalizing s with
  | nil => rfl
  | cons call calls ih =>
      have hrun : runOn working s (call :: calls) =
          runOn working (Store.after call.1 working s call.2) calls := rfl
      rw [hrun, ih, hstep, met, List.countP_cons, Nat.add_assoc, Nat.add_comm (List.countP _ _)]

theorem contains_eq_isSome_lookup (s : Store) (key : String) :
    s.cache.entries.contains key = (s.cache.lookup key).isSome := by
  rw [Bool.eq_iff_iff, OrderedMap.contains_iff_mem_keys, Option.isSome_iff_ne_none, ne_eq,
    Cache.lookup_eq_none_iff, OrderedMap.find?_eq_none_iff, not_not]

theorem statistics_keep (s : Store) (key : String) (result : Except Fault Bytes) :
    (s.keep key result).statistics.hits = s.statistics.hits ∧
      (s.keep key result).statistics.misses = s.statistics.misses ∧
      (s.keep key result).statistics.read = s.statistics.read + if result.isOk then 1 else 0 := by
  cases result with
  | ok data => exact ⟨rfl, rfl, rfl⟩
  | error fault => cases fault <;> exact ⟨rfl, rfl, rfl⟩

theorem statistics_after (disk : Disk) (working : Path) (s : Store) (call : Call) :
    let before := s.statistics
    let behind := (Store.after disk working s call).statistics
    behind.hits + behind.misses = before.hits + before.misses + (if call.isRead then 1 else 0) ∧
      behind.misses = before.misses + (if call.misses s then 1 else 0) ∧
      behind.read = before.read + if call.loads s then 1 else 0 := by
  cases call with
  | openFile path priority =>
      simp only [Store.after, open_eq]
      cases File.opened? disk working path priority <;> exact ⟨rfl, rfl, rfl⟩
  | clearCache => exact ⟨rfl, rfl, rfl⟩
  | close => exact ⟨rfl, rfl, rfl⟩
  | read key =>
      simp only [Store.after, Call.isRead, Call.key?, Call.loads, Call.misses,
        contains_eq_isSome_lookup]
      cases hlookup : s.cache.lookup (normalize key) with
      | some found =>
          rw [read_of_lookup_eq_some hlookup]
          exact ⟨Nat.add_right_comm .., rfl, rfl⟩
      | none =>
          rw [read_of_lookup_eq_none hlookup]
          obtain ⟨hhits, hmisses, hread⟩ := statistics_keep
            { s with statistics.misses := s.statistics.misses + 1 } (normalize key)
            (s.load (normalize key))
          exact ⟨by rw [hhits, hmisses]; rfl, hmisses, hread⟩

/-- Each read is a hit or a miss, and each miss that gets data is a read of the files. -/
theorem statistics_runOn (working : Path) (s : Store) (calls : List (Disk × Call)) :
    let before := s.statistics
    let behind := (runOn working s calls).statistics
    behind.hits + behind.misses =
        before.hits + before.misses + calls.countP (fun call => call.2.isRead) ∧
      behind.misses = before.misses + (met working s calls).countP (fun m => m.2.misses m.1) ∧
      behind.read = before.read + (met working s calls).countP fun m => m.2.loads m.1 := by
  have hreads : (met working s calls).countP (fun m => m.2.isRead) =
      calls.countP fun call => call.2.isRead := by
    have hcalls := congrArg (List.countP Call.isRead) (map_snd_met working s calls)
    rwa [List.countP_map, List.countP_map] at hcalls
  refine ⟨?_, ?_, ?_⟩
  · rw [← hreads]
    exact count_runOn (fun s => s.statistics.hits + s.statistics.misses) (fun _ call => call.isRead)
      (fun disk s call => (statistics_after disk working s call).1) s calls
  · exact count_runOn (fun s => s.statistics.misses) (fun s call => call.misses s)
      (fun disk s call => (statistics_after disk working s call).2.1) s calls
  · exact count_runOn (fun s => s.statistics.read) (fun s call => call.loads s)
      (fun disk s call => (statistics_after disk working s call).2.2) s calls

end Runs

/-- Behind any calls a cache counts what it holds and keeps to its limit, and its keys are in the
order of their last reads. A read that misses leaves the longest part that was read last and fits
beside the new data, and then the new data, or all as it was where there is too much data or none.
Each read is counted as a hit or a miss, and each miss that gets data as a read. -/
theorem runOn_keeps_most_recent (working : Path) (limit : Nat) (calls : List (Disk × Call)) :
    let s := runOn working (new limit) calls
    (s.cache.size = s.cache.entries.weight ∧ s.cache.size ≤ limit) ∧
    OrderedByLastRead (calls.filterMap fun call => call.2.key?) s.cache.entries.keys ∧
    (∀ key data, normalize key ∉ s.cache.entries.keys → (s.read key).1 = .ok data →
      (data.length ≤ limit →
        ∃ kept, Cache.IsLongestFit limit data.length s.cache.entries.entries kept ∧
          (s.read key).2.cache.entries.entries = kept ++ [(normalize key, data)]) ∧
      (limit < data.length → (s.read key).2.cache = s.cache)) ∧
    (∀ key fault, (s.read key).1 = .error fault → (s.read key).2.cache = s.cache) ∧
    s.statistics.hits + s.statistics.misses = calls.countP (fun call => call.2.isRead) ∧
    s.statistics.misses =
      (met working (new limit) calls).countP (fun m => m.2.misses m.1) ∧
    s.statistics.read = (met working (new limit) calls).countP fun m => m.2.loads m.1 := by
  have h : Recent limit _ _ := recent_runOn working (Int.natCast_nonneg limit) calls
  have hsize := h.intact.size_le
  rw [h.limit_eq] at hsize
  obtain ⟨hreads, hmisses, hloads⟩ := statistics_runOn working (new limit) calls
  refine ⟨⟨h.intact.size_eq, Int.ofNat_le.mp hsize⟩, h.keys, fun key data hkey hread => ⟨?_, ?_⟩,
    fun key fault => cache_read_of_error, ?_, ?_, ?_⟩
  · exact fun hdata => h.entries_read hkey hread (Int.ofNat_le.mpr hdata)
  · exact fun hdata => h.cache_read_of_lt hkey hread (Int.ofNat_lt.mpr hdata)
  · exact hreads.trans (Nat.zero_add _)
  · exact hmisses.trans (Nat.zero_add _)
  · exact hloads.trans (Nat.zero_add _)

end Grf.Store

end ArchiveExport
