import ArchiveExport.Proofs.Archive.Layout
import ArchiveExport.Proofs.Archive.Store
import Mathlib.Data.List.Induction

/-!
# Coherence of the cache with the index

The cache knows data by keys, and the index behind it changes with every file that is opened. A
cached key is fresh as long as it reads as its entry in the index does. Opening a file is the only
call that can make a cached key stale: it forgets nothing of what is cached, not even where the new
file overrides it.
-/

namespace ArchiveExport.Grf.Store

open Archive (Fault)

/-- What the cache holds under a key is what the key reads as without the cache. -/
def FreshAt (s : Store) (key : String) : Prop :=
  ∀ data, s.cache.entries.find? key = some data → s.load key = .ok data

/-- Everything that is cached is fresh. -/
def Fresh (s : Store) : Prop :=
  ∀ key, s.FreshAt key

/-- A read is answered from the index exactly when its key is not stale. -/
theorem read_eq_load_iff_freshAt (s : Store) (key : String) :
    (s.read key).1 = s.load (normalize key) ↔ s.FreshAt (normalize key) := by
  cases h : s.cache.entries.find? (normalize key) with
  | none =>
      have hfresh : s.FreshAt (normalize key) := by
        intro data hdata
        simp [h] at hdata
      exact iff_of_true (read_of_not_cached h) hfresh
  | some data =>
      rw [read_of_cached h]
      constructor
      · intro hload found hfound
        obtain rfl : data = found := by simpa [h] using hfound
        exact hload.symm
      · intro hfresh
        exact (hfresh data h).symm

/-! ### What every store has in its cache -/

/-- The cache lists no key twice and knows keys in their normalized spelling. -/
structure WellKept (s : Store) : Prop where
  nodup : s.cache.entries.keys.Nodup
  normalized : ∀ k ∈ s.cache.entries.keys, ∃ key, normalize key = k

theorem wellKept_of_cache_eq {s t : Store} (hs : s.WellKept) (h : t.cache = s.cache) :
    t.WellKept := by
  constructor
  · rw [h]
    exact hs.nodup
  · rw [h]
    exact hs.normalized

theorem wellKept_of_cache_clear {s : Store} {c : Cache} (h : s.cache = c.clear) :
    s.WellKept := by
  have hkeys : s.cache.entries.keys = [] := by
    rw [h]
    rfl
  constructor
  · rw [hkeys]
    exact List.nodup_nil
  · simp [hkeys]

theorem wellKept_new (limit : Int) : (new limit).WellKept :=
  wellKept_of_cache_clear (c := { limit }) rfl

theorem wellKept_read {s : Store} (hs : s.WellKept) (key : String) : (s.read key).2.WellKept := by
  rcases cache_read s key with ⟨data, h⟩ | h | ⟨data, hload, h⟩
  · refine ⟨Cache.nodup_keys_lookup hs.nodup h, fun k hk => hs.normalized k ?_⟩
    obtain ⟨found, hfound⟩ := OrderedMap.mem_keys_iff_exists_find?.mp hk
    rw [(Cache.find?_of_lookup h).2] at hfound
    exact OrderedMap.mem_keys_of_find? hfound
  · exact wellKept_of_cache_eq hs h
  · constructor
    · rw [h]
      exact Cache.nodup_keys_store hs.nodup _ data
    · intro k hk
      rw [h] at hk
      obtain ⟨found, hfound⟩ := OrderedMap.mem_keys_iff_exists_find?.mp hk
      rcases Cache.find?_of_find?_store hs.nodup hfound with ⟨rfl, -⟩ | hold
      · exact ⟨key, rfl⟩
      · exact hs.normalized k (OrderedMap.mem_keys_of_find? hold)

section Runs

variable {disk : Disk} {working : Path}

theorem cache_openFile (s : Store) (path : String) (priority : Int) :
    (after disk working s (.openFile path priority)).cache = s.cache := by
  simp only [after, open_eq]
  cases File.opened? disk working path priority <;> rfl

theorem wellKept_after {s : Store} (hs : s.WellKept) (call : Call) :
    (after disk working s call).WellKept := by
  cases call with
  | openFile path priority => exact wellKept_of_cache_eq hs (cache_openFile s path priority)
  | read key => exact wellKept_read hs key
  | clearCache => exact wellKept_of_cache_clear rfl
  | close => exact wellKept_of_cache_clear rfl

theorem wellKept_run (limit : Int) (calls : List Call) :
    (run disk working (new limit) calls).WellKept :=
  run_induction (wellKept_new limit) (fun _ call hs => wellKept_after hs call) calls

/-! ### Which calls keep everything fresh -/

theorem fresh_of_cache_clear {s : Store} {c : Cache} (h : s.cache = c.clear) : s.Fresh := by
  intro key data hdata
  rw [h] at hdata
  simp [Cache.clear, OrderedMap.find?] at hdata

theorem fresh_new (limit : Int) : (new limit).Fresh :=
  fresh_of_cache_clear (c := { limit }) rfl

theorem fresh_read {s : Store} (hkept : s.WellKept) (hs : s.Fresh) (key : String) :
    (s.read key).2.Fresh := by
  intro k data hdata
  rw [load_congr (files_read s key).1 (files_read s key).2]
  rcases cache_read s key with ⟨found, h⟩ | h | ⟨found, hload, h⟩
  · rw [(Cache.find?_of_lookup h).2] at hdata
    exact hs k data hdata
  · rw [h] at hdata
    exact hs k data hdata
  · rw [h] at hdata
    rcases Cache.find?_of_find?_store hkept.nodup hdata with ⟨rfl, rfl⟩ | hold
    · exact hload
    · exact hs k data hold

/-- A call leaves every key that is cached behind it to read as it did. -/
def Undisturbed (disk : Disk) (working : Path) (s : Store) : Call → Prop
  | .openFile path priority => ∀ key ∈ s.cache.entries.keys,
      (after disk working s (.openFile path priority)).load key = s.load key
  | _ => True

theorem fresh_after {s : Store} (hkept : s.WellKept) (hs : s.Fresh) {call : Call}
    (hcall : Undisturbed disk working s call) : (after disk working s call).Fresh := by
  cases call with
  | openFile path priority =>
      intro k data hdata
      rw [cache_openFile] at hdata
      rw [hcall k (OrderedMap.mem_keys_of_find? hdata)]
      exact hs k data hdata
  | read key => exact fresh_read hkept hs key
  | clearCache => exact fresh_of_cache_clear rfl
  | close => exact fresh_of_cache_clear rfl

/-- Where each call of a run leaves what is cached to read as it did, everything stays fresh. -/
theorem fresh_run {limit : Int} {calls : List Call}
    (h : ∀ past call, past ++ [call] <+: calls →
      Undisturbed disk working (run disk working (new limit) past) call) :
    (run disk working (new limit) calls).Fresh := by
  induction calls using List.reverseRecOn with
  | nil => exact fresh_new limit
  | append_singleton calls call ih =>
      have hbefore : (run disk working (new limit) calls).Fresh :=
        ih fun past call hpast => h past call (hpast.trans (List.prefix_append _ _))
      rw [run_append_singleton]
      exact fresh_after (wellKept_run limit calls) hbefore (h calls call (List.prefix_refl _))

/-- A file that makes cached keys stale shows in a read of one of them. -/
theorem undisturbed_of_reads {limit : Int} {past : List Call} {call : Call}
    (hbefore : (run disk working (new limit) past).Fresh)
    (hafter : (run disk working (new limit) (past ++ [call])).Fresh) :
    Undisturbed disk working (run disk working (new limit) past) call := by
  cases call with
  | openFile path priority =>
      intro k hk
      obtain ⟨data, hdata⟩ := OrderedMap.mem_keys_iff_exists_find?.mp hk
      rw [run_append_singleton] at hafter
      have hcached : (after disk working (run disk working (new limit) past)
          (.openFile path priority)).cache.entries.find? k = some data := by
        rw [cache_openFile]
        exact hdata
      rw [hafter k data hcached, hbefore k data hdata]
  | read key => trivial
  | clearCache => trivial
  | close => trivial

/-- Every read is answered from the index exactly when everything that is cached is fresh. -/
theorem fresh_iff_forall_read {s : Store} (hs : s.WellKept) :
    s.Fresh ↔ ∀ key, (s.read key).1 = s.load (normalize key) := by
  constructor
  · intro hfresh key
    exact (read_eq_load_iff_freshAt s key).mpr (hfresh _)
  · intro hreads k data hdata
    obtain ⟨key, rfl⟩ := hs.normalized k (OrderedMap.mem_keys_of_find? hdata)
    exact (read_eq_load_iff_freshAt s key).mp (hreads key) data hdata

/-- A store that has only opened and closed the files that another store has. -/
theorem load_run_filter (limit : Int) (calls : List Call) (key : String) :
    (run disk working (new limit) (calls.filter Call.isAboutFiles)).load key =
      (run disk working (new limit) calls).load key := by
  obtain ⟨hfiles, hindex⟩ := files_run_filter disk working
    (s := new limit) rfl rfl calls
  exact (load_congr hfiles hindex key).symm

/-- All along a run of calls, every read is answered as if nothing but the opened and closed files
had come before and nothing were cached, exactly when no file is opened that changes what a key
reads as while the key is cached. -/
theorem forall_read_eq_load_iff (disk : Disk) (working : Path) (limit : Int)
    (calls : List Call) :
    (∀ past, past <+: calls → ∀ key,
      ((run disk working (new limit) past).read key).1 =
        (run disk working (new limit) (past.filter Call.isAboutFiles)).load (normalize key)) ↔
    ∀ past path priority, past ++ [.openFile path priority] <+: calls →
      ∀ key ∈ (run disk working (new limit) past).cache.entries.keys,
        (run disk working (new limit) (past ++ [.openFile path priority])).load key =
          (run disk working (new limit) past).load key := by
  have hfresh : ∀ past, (∀ key, ((run disk working (new limit) past).read key).1 =
        (run disk working (new limit) (past.filter Call.isAboutFiles)).load (normalize key)) ↔
      (run disk working (new limit) past).Fresh := by
    intro past
    simp only [load_run_filter, fresh_iff_forall_read (wellKept_run limit past)]
  constructor
  · intro hreads past path priority hpast
    have hbefore := (hfresh past).mp (hreads past ((List.prefix_append _ _).trans hpast))
    have hafter := (hfresh _).mp (hreads _ hpast)
    rw [run_append_singleton]
    exact undisturbed_of_reads hbefore hafter
  · intro hopens past hpast
    rw [hfresh]
    refine fresh_run fun earlier call hearlier => ?_
    cases call with
    | openFile path priority =>
        have hundisturbed := hopens earlier path priority (hearlier.trans hpast)
        rwa [run_append_singleton] at hundisturbed
    | read key => trivial
    | clearCache => trivial
    | close => trivial

end Runs

/-- A file that holds nothing but an octet under `k`. -/
def fileOf (b : UInt8) : Bytes :=
  File.layout [⟨Bytes.ofString "k", 1, 1, 1, 0⟩] [b]

/-- Two files that hold different octets under one key. -/
def twoFiles : Disk :=
  (Disk.empty.putFile ["old.grf"] (fileOf 1)).putFile ["new.grf"] (fileOf 2)

/-- A key that was read before a file of a higher priority overrides it still reads as before. -/
theorem read_stale_of_overridden :
    ((run twoFiles [] (new 100)
        [.openFile "/old.grf" 0, .read "k", .openFile "/new.grf" 1]).read "k").1 = .ok [1] ∧
      (run twoFiles [] (new 100) ([.openFile "/old.grf" 0, .read "k",
        .openFile "/new.grf" 1].filter Call.isAboutFiles)).load (normalize "k") = .ok [2] := by
  decide +kernel

end ArchiveExport.Grf.Store
