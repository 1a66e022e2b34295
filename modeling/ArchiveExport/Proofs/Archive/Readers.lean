import ArchiveExport.Proofs.Archive.Capacity
import ArchiveExport.Proofs.Archive.Stored
import Mathlib.Data.List.Nodup

/-!
# Several reads at a time

A read looks its key up in the cache, reads the entry, and keeps what it has read. Several reads may
be under way at a time, and their parts come in any order. The cache then counts what it holds and
keeps to its limit as long as no read keeps its data where that of another read of the key is still
held; two reads that both miss a key in the cache can do that, and from then on the cache counts
octets that it has lost. Reads of different keys never do.
-/

namespace ArchiveExport.Grf.Store

open Archive (Fault)

/-- How far a read has come. -/
inductive Stage where
  /-- The key has not been looked up. -/
  | begun (key : String)
  /-- The normalized key is not in the cache. -/
  | missed (key : String)
  /-- The entry of the normalized key has been read, and its data has not been kept. -/
  | loaded (key : String) (result : Except Fault Bytes)
  | done (result : Except Fault Bytes)

/-- The next part of a read. -/
def Stage.advance (stage : Stage) (s : Store) : Stage × Store :=
  match stage with
  | .begun key =>
    match s.lookup (normalize key) with
    | (some data, s) => (.done (.ok data), s)
    | (none, s) => (.missed (normalize key), s)
  | .missed key => (.loaded key (s.load key), s)
  | .loaded key result => (.done result, s.keep key result)
  | .done result => (.done result, s)

/-- The parts of one read without others in between are the read. -/
theorem advance_advance_advance (s : Store) (key : String) :
    let looked := (Stage.begun key).advance s
    let loaded := looked.1.advance looked.2
    loaded.1.advance loaded.2 = (.done (s.read key).1, (s.read key).2) := by
  simp only [Stage.advance, read]
  rcases h : s.lookup (normalize key) with ⟨found, looked⟩
  cases found <;> rfl

/-- A store with the reads that are under way. -/
structure Busy where
  store : Store
  reads : List Stage

namespace Busy

/-- A store and the keys that are going to be read. -/
def start (s : Store) (keys : List String) : Busy :=
  ⟨s, keys.map .begun⟩

/-- The read of a number does its next part. -/
def turn (b : Busy) (i : Nat) : Busy :=
  match b.reads[i]? with
  | none => b
  | some stage => ⟨(stage.advance b.store).2, b.reads.set i (stage.advance b.store).1⟩

/-- Turns, one after the other. -/
def play (b : Busy) (turns : List Nat) : Busy :=
  turns.foldl turn b

theorem play_append_singleton (b : Busy) (turns : List Nat) (i : Nat) :
    b.play (turns ++ [i]) = (b.play turns).turn i := by
  simp [play]

/-- What holds at the start and behind each turn holds all along. -/
theorem play_induction {motive : Busy → Prop} {b : Busy} (hb : motive b)
    (hstep : ∀ b i, motive b → motive (b.turn i)) (turns : List Nat) :
    motive (b.play turns) := by
  induction turns generalizing b with
  | nil => exact hb
  | cons i turns ih => exact ih (hstep b i hb)

end Busy

/-! ### What a part of a read does to the cache -/

theorem cache_lookup (s : Store) (key : String) :
    (∃ data, s.cache.lookup key = some (data, (s.lookup key).2.cache)) ∨
      (s.lookup key).2.cache = s.cache := by
  rw [lookup]
  cases h : s.cache.lookup key with
  | none => exact Or.inr rfl
  | some found => exact Or.inl ⟨found.1, rfl⟩

/-- A part of a read looks data up, or keeps the data that has been read, or leaves the cache
alone. -/
theorem cache_advance (stage : Stage) (s : Store) :
    (∃ key data, s.cache.lookup key = some (data, (stage.advance s).2.cache)) ∨
      (stage.advance s).2.cache = s.cache ∨
      ∃ key data, stage = .loaded key (.ok data) ∧
        (stage.advance s).2.cache = s.cache.store key data := by
  cases stage with
  | begun key =>
      have hadvance : ((Stage.begun key).advance s).2 = (s.lookup (normalize key)).2 := by
        simp only [Stage.advance]
        split <;> simp [*]
      rw [hadvance]
      rcases cache_lookup s (normalize key) with ⟨data, h⟩ | h
      · exact Or.inl ⟨_, data, h⟩
      · exact Or.inr (Or.inl h)
  | missed key => exact Or.inr (Or.inl rfl)
  | loaded key result =>
      cases result with
      | error fault => exact Or.inr (Or.inl (cache_keep_error s key fault))
      | ok data => exact Or.inr (Or.inr ⟨key, data, rfl, rfl⟩)
  | done result => exact Or.inr (Or.inl rfl)

theorem nodup_keys_advance {s : Store} (hnodup : s.cache.entries.keys.Nodup) (stage : Stage) :
    (stage.advance s).2.cache.entries.keys.Nodup := by
  rcases cache_advance stage s with ⟨key, data, h⟩ | h | ⟨key, data, -, h⟩
  · exact Cache.nodup_keys_lookup hnodup h
  · rwa [h]
  · rw [h]
    exact Cache.nodup_keys_store hnodup key data

/-- A part of a read spoils the count exactly where it keeps data that replaces other data. -/
theorem intact_advance_iff {s : Store} (hnodup : s.cache.entries.keys.Nodup)
    (hs : s.cache.Intact) (stage : Stage) :
    (stage.advance s).2.cache.Intact ↔
      ∀ key data, stage = .loaded key (.ok data) → ¬ s.cache.Replaces key data := by
  by_cases hstage : ∃ key data, stage = .loaded key (.ok data)
  · obtain ⟨key, data, rfl⟩ := hstage
    rw [Stage.advance, cache_keep_ok, Cache.intact_store_iff hnodup hs]
    constructor
    · rintro h _ _ ⟨⟩
      exact h
    · intro h
      exact h key data rfl
  · refine iff_of_true ?_ fun key data h => absurd ⟨key, data, h⟩ hstage
    rcases cache_advance stage s with ⟨key, data, h⟩ | h | ⟨key, data, h, -⟩
    · exact Cache.intact_lookup hnodup hs h
    · rwa [h]
    · exact absurd ⟨key, data, h⟩ hstage

/-! ### Stores with reads under way -/

namespace Busy

theorem nodup_keys_turn {b : Busy} (hnodup : b.store.cache.entries.keys.Nodup) (i : Nat) :
    (b.turn i).store.cache.entries.keys.Nodup := by
  rw [turn]
  split
  · exact hnodup
  · exact nodup_keys_advance hnodup _

theorem nodup_keys_play {b : Busy} (hnodup : b.store.cache.entries.keys.Nodup)
    (turns : List Nat) : (b.play turns).store.cache.entries.keys.Nodup :=
  play_induction (motive := fun b => b.store.cache.entries.keys.Nodup) hnodup
    (fun _ i h => nodup_keys_turn h i) turns

/-- A turn keeps data where other data under its key is still held. -/
def Replaces (b : Busy) (i : Nat) : Prop :=
  ∃ key data, b.reads[i]? = some (.loaded key (.ok data)) ∧ b.store.cache.Replaces key data

theorem intact_turn_iff {b : Busy} (hnodup : b.store.cache.entries.keys.Nodup)
    (hb : b.store.cache.Intact) (i : Nat) :
    (b.turn i).store.cache.Intact ↔ ¬ b.Replaces i := by
  rw [turn]
  cases h : b.reads[i]? with
  | none => exact iff_of_true hb (by simp [Replaces, h])
  | some stage =>
      rw [intact_advance_iff hnodup hb]
      simp [Replaces, h]

/-- All along some turns the cache is intact, exactly when it is at the start and no turn
replaces data. -/
theorem forall_intact_play_iff {b : Busy} (hnodup : b.store.cache.entries.keys.Nodup)
    (turns : List Nat) :
    (∀ past, past <+: turns → (b.play past).store.cache.Intact) ↔
      b.store.cache.Intact ∧
        ∀ past i, past ++ [i] <+: turns → ¬ (b.play past).Replaces i := by
  constructor
  · intro hintact
    refine ⟨hintact [] (List.nil_prefix), fun past i hpast => ?_⟩
    have hbefore := hintact past ((List.prefix_append _ _).trans hpast)
    have hafter := hintact _ hpast
    rw [play_append_singleton] at hafter
    exact (intact_turn_iff (nodup_keys_play hnodup past) hbefore i).mp hafter
  · rintro ⟨hstart, hturns⟩ past hpast
    induction past using List.reverseRecOn with
    | nil => exact hstart
    | append_singleton past i ih =>
        rw [play_append_singleton, intact_turn_iff (nodup_keys_play hnodup past)
          (ih ((List.prefix_append _ _).trans hpast))]
        exact hturns past i hpast

end Busy

/-! ### Reads of different keys -/

namespace Stage

/-- The normalized key of a read that is under way. -/
def key? : Stage → Option String
  | .begun key => some (normalize key)
  | .missed key => some key
  | .loaded key _ => some key
  | .done _ => none

/-- Whether a read has missed its key and has not kept its data. -/
def isMissing : Stage → Bool
  | .begun _ => false
  | .missed _ => true
  | .loaded _ _ => true
  | .done _ => false

variable {stage : Stage} {s : Store} {key : String}

theorem key?_of_advance (h : (stage.advance s).1.key? = some key) : stage.key? = some key := by
  cases stage with
  | begun spelled =>
      rw [advance] at h
      split at h
      · simp [key?] at h
      · exact h
  | missed _ => exact h
  | loaded _ _ => simp [advance, key?] at h
  | done _ => exact h

/-- A part of a read brings no key but its own into the cache. -/
theorem mem_keys_of_advance (hnodup : s.cache.entries.keys.Nodup)
    (h : key ∈ (stage.advance s).2.cache.entries.keys) :
    key ∈ s.cache.entries.keys ∨ stage.key? = some key := by
  obtain ⟨value, hvalue⟩ := OrderedMap.mem_keys_iff_exists_find?.mp h
  rcases cache_advance stage s with ⟨_, data, hlook⟩ | hsame | ⟨kept, data, rfl, hstore⟩
  · rw [(Cache.find?_of_lookup hlook).2] at hvalue
    exact Or.inl (OrderedMap.mem_keys_of_find? hvalue)
  · exact Or.inl (by rwa [hsame] at h)
  · rw [hstore] at hvalue
    rcases Cache.find?_of_find?_store hnodup hvalue with ⟨rfl, -⟩ | hold
    · exact Or.inr rfl
    · exact Or.inl (OrderedMap.mem_keys_of_find? hold)

/-- What a read misses is not in the cache when it has looked. -/
theorem not_mem_keys_advance (hstage : stage.isMissing = true → ∀ key, stage.key? = some key →
      key ∉ s.cache.entries.keys)
    (hmissing : (stage.advance s).1.isMissing = true)
    (hkey : (stage.advance s).1.key? = some key) :
    key ∉ (stage.advance s).2.cache.entries.keys := by
  cases stage with
  | begun spelled =>
      cases hfound : s.cache.lookup (normalize spelled) with
      | some found => simp [advance, lookup, hfound, isMissing] at hmissing
      | none =>
          simp only [advance, lookup, hfound, key?, Option.some.injEq] at hkey ⊢
          rw [← hkey]
          exact OrderedMap.find?_eq_none_iff.mp (Cache.lookup_eq_none_iff.mp hfound)
  | missed _ => exact hstage rfl key hkey
  | loaded _ _ => simp [advance, isMissing] at hmissing
  | done _ => simp [advance, isMissing] at hmissing

end Stage

namespace Busy

/-- Each read is that of one of a list of keys, and no key that a read has missed is in the
cache. -/
structure Unshared (keys : List String) (b : Busy) : Prop where
  nodup : b.store.cache.entries.keys.Nodup
  key : ∀ {i : Nat} {stage : Stage} {key : String}, b.reads[i]? = some stage →
    stage.key? = some key → keys[i]? = some key
  missing : ∀ {i : Nat} {stage : Stage} {key : String}, b.reads[i]? = some stage →
    stage.isMissing = true → stage.key? = some key → key ∉ b.store.cache.entries.keys

variable {keys : List String}

theorem unshared_start {s : Store} (hnodup : s.cache.entries.keys.Nodup) (keys : List String) :
    Unshared (keys.map normalize) (start s keys) where
  nodup := hnodup
  key := by
    intro i stage key hread hkey
    simp only [start, List.getElem?_map, Option.map_eq_some_iff] at hread ⊢
    obtain ⟨spelled, hspelled, rfl⟩ := hread
    exact ⟨spelled, hspelled, Option.some.inj hkey⟩
  missing := by
    intro i stage key hread hmissing
    simp only [start, List.getElem?_map, Option.map_eq_some_iff] at hread
    obtain ⟨spelled, -, rfl⟩ := hread
    simp [Stage.isMissing] at hmissing

theorem unshared_turn (hkeys : keys.Nodup) {b : Busy} (hb : b.Unshared keys) (i : Nat) :
    (b.turn i).Unshared keys := by
  rw [turn]
  cases hturn : b.reads[i]? with
  | none => exact hb
  | some stage =>
      -- a read of another number is as it was
      have hother : ∀ {j other}, j ≠ i →
          (b.reads.set i (stage.advance b.store).1)[j]? = some other →
            b.reads[j]? = some other := by
        intro j other hj h
        rwa [List.getElem?_set_ne (Ne.symm hj)] at h
      have hown : ∀ {other}, (b.reads.set i (stage.advance b.store).1)[i]? = some other →
          (stage.advance b.store).1 = other := by
        intro other h
        rw [List.getElem?_set_self (List.getElem?_eq_some_iff.mp hturn).1] at h
        exact Option.some.inj h
      refine ⟨nodup_keys_advance hb.nodup stage, ?_, ?_⟩
      · intro j other key hread hkey
        by_cases hj : j = i
        · subst hj
          obtain rfl := hown hread
          exact hb.key hturn (Stage.key?_of_advance hkey)
        · exact hb.key (hother hj hread) hkey
      · intro j other key hread hmissing hkey
        by_cases hj : j = i
        · subst hj
          obtain rfl := hown hread
          exact Stage.not_mem_keys_advance (fun h key => hb.missing hturn h) hmissing hkey
        · have hbefore := hother hj hread
          intro hmem
          rcases Stage.mem_keys_of_advance hb.nodup hmem with hold | hnew
          · exact hb.missing hbefore hmissing hkey hold
          · -- two reads of one key have the same number
            have hi := hb.key hturn hnew
            have hj' := hb.key hbefore hkey
            obtain ⟨hlt, -⟩ := List.getElem?_eq_some_iff.mp hi
            exact hj ((List.getElem?_inj hlt hkeys).mp (hi.trans hj'.symm)).symm

/-- Reads of different keys never replace data. -/
theorem not_replaces_play {s : Store} (hnodup : s.cache.entries.keys.Nodup) {keys : List String}
    (hkeys : (keys.map normalize).Nodup) (turns : List Nat) (i : Nat) :
    ¬ ((start s keys).play turns).Replaces i := by
  have hunshared := play_induction (motive := Unshared (keys.map normalize))
    (unshared_start hnodup keys) (fun _ i hb => unshared_turn hkeys hb i) turns
  rintro ⟨key, data, hread, hreplaces⟩
  exact Cache.not_replaces_of_not_mem hunshared.nodup (hunshared.missing hread rfl rfl) hreplaces

end Busy

/-! ### Stores behind calls in turn -/

section Runs

variable {disk : Disk} {working : Path}

theorem limit_after (s : Store) (call : Call) :
    (after disk working s call).cache.limit = s.cache.limit := by
  cases call with
  | openFile path priority => rw [cache_openFile]
  | read key =>
      rcases cache_read s key with ⟨data, h⟩ | h | ⟨data, -, h⟩
      · exact Cache.limit_lookup h
      · exact congrArg Cache.limit h
      · exact (congrArg Cache.limit h).trans (Cache.limit_store _ _ _)
  | clearCache => rfl
  | close => rfl

theorem limit_run (limit : Int) (calls : List Call) :
    (run disk working (new limit) calls).cache.limit = limit :=
  run_induction (motive := fun s => s.cache.limit = limit) rfl
    (fun s call hs => (limit_after s call).trans hs) calls

/-- A read without others in between looks data up, keeps data that was not held, or leaves the
cache alone. -/
theorem intact_read {s : Store} (hnodup : s.cache.entries.keys.Nodup) (hs : s.cache.Intact)
    (key : String) : (s.read key).2.cache.Intact := by
  cases hfound : s.cache.lookup (normalize key) with
  | some found =>
      rw [read_of_lookup_eq_some hfound]
      exact Cache.intact_lookup hnodup hs hfound
  | none =>
      have habsent : normalize key ∉ s.cache.entries.keys :=
        OrderedMap.find?_eq_none_iff.mp (Cache.lookup_eq_none_iff.mp hfound)
      rw [read_of_lookup_eq_none hfound]
      cases s.load (normalize key) with
      | error fault =>
          rw [cache_keep_error]
          exact hs
      | ok data =>
          rw [cache_keep_ok]
          exact (Cache.intact_store_iff hnodup hs).mpr
            (Cache.not_replaces_of_not_mem hnodup habsent)

theorem intact_after {s : Store} (hlimit : 0 ≤ s.cache.limit)
    (hnodup : s.cache.entries.keys.Nodup) (hs : s.cache.Intact) (call : Call) :
    (after disk working s call).cache.Intact := by
  cases call with
  | openFile path priority => rwa [cache_openFile]
  | read key => exact intact_read hnodup hs key
  | clearCache => exact Cache.intact_clear hlimit
  | close => exact Cache.intact_clear hlimit

theorem intact_run {limit : Int} (hlimit : 0 ≤ limit) (calls : List Call) :
    (run disk working (new limit) calls).cache.Intact := by
  induction calls using List.reverseRecOn with
  | nil => exact Cache.intact_clear (c := { limit }) hlimit
  | append_singleton calls call ih =>
      rw [run_append_singleton]
      exact intact_after (by rwa [limit_run]) (wellKept_run limit calls).nodup ih call

/-- Behind any calls, any number of reads are under way at a time. In every state that they come
through, the count is that of the data held and within the limit, exactly when the limit is not
negative and no read keeps its data where other data under its key is still held. Reads of
different keys never do the latter. -/
theorem forall_intact_play_run_iff (disk : Disk) (working : Path) (limit : Int)
    (calls : List Call) (keys : List String) (turns : List Nat) :
    ((∀ past, past <+: turns →
        ((Busy.start (run disk working (new limit) calls) keys).play past).store.cache.Intact) ↔
      0 ≤ limit ∧ ∀ past i, past ++ [i] <+: turns →
        ¬ ((Busy.start (run disk working (new limit) calls) keys).play past).Replaces i) ∧
    ((keys.map normalize).Nodup → ∀ past i,
      ¬ ((Busy.start (run disk working (new limit) calls) keys).play past).Replaces i) := by
  have hnodup : (run disk working (new limit) calls).cache.entries.keys.Nodup :=
    (wellKept_run limit calls).nodup
  refine ⟨?_, fun hkeys => Busy.not_replaces_play hnodup hkeys⟩
  rw [Busy.forall_intact_play_iff hnodup]
  refine and_congr_left' ⟨fun hstart => ?_, fun hlimit => intact_run hlimit calls⟩
  have hbound := hstart.size_le
  rw [Busy.start, limit_run] at hbound
  omega

end Runs

/-- Two reads that both miss `k` both keep it where there is room for it twice: the cache counts it
twice and holds it once. Another read then makes room, and that takes it off the count once. -/
theorem cache_play_of_missed_twice {s : Store} {limit : Int} {x y : Bytes}
    (hcache : s.cache = (new limit).cache) (hx : s.load "k" = .ok x) (hy : s.load "m" = .ok y)
    (htwice : (x.length : Int) + x.length ≤ limit) (hroom : y.length ≤ limit)
    (hover : limit < (x.length : Int) + x.length + y.length) :
    ((Busy.start s ["k", "k", "m"]).play [0, 1, 0, 1, 0, 1]).store.cache =
        ⟨limit, ⟨[("k", x)]⟩, x.length + x.length⟩ ∧
      (((Busy.start s ["k", "k", "m"]).play [0, 1, 0, 1, 0, 1]).play [2, 2, 2]).store.cache =
        ⟨limit, ⟨[("m", y)]⟩, x.length + y.length⟩ := by
  obtain ⟨cache, files, index, statistics⟩ := s
  obtain rfl : cache = { limit } := hcache
  have hfits : ¬ limit < x.length := by omega
  have hfitsAgain : ¬ limit < (x.length : Int) + x.length := by omega
  have hfitsOther : ¬ limit < y.length := by omega
  have hkept : Cache.store { limit } "k" x = ⟨limit, ⟨[("k", x)]⟩, x.length⟩ := by
    simp [Cache.store, Cache.makeRoom, OrderedMap.insert, OrderedMap.alter, OrderedMap.contains,
      hfits]
  have hkeptAgain : Cache.store ⟨limit, ⟨[("k", x)]⟩, x.length⟩ "k" x =
      ⟨limit, ⟨[("k", x)]⟩, x.length + x.length⟩ := by
    simp [Cache.store, Cache.makeRoom, OrderedMap.insert, OrderedMap.alter, OrderedMap.contains,
      hfits, hfitsAgain]
  have hkeptOther : Cache.store ⟨limit, ⟨[("k", x)]⟩, x.length + x.length⟩ "m" y =
      ⟨limit, ⟨[("m", y)]⟩, x.length + y.length⟩ := by
    simp [Cache.store, Cache.makeRoom, OrderedMap.insert, OrderedMap.alter, OrderedMap.contains,
      hfitsOther, hover]
  have hk : normalize "k" = "k" := by decide
  have hm : normalize "m" = "m" := by decide
  have hloadk (cache : Cache) (statistics : Statistics) :
      load ⟨cache, files, index, statistics⟩ "k" = .ok x := (load_congr rfl rfl _).trans hx
  have hloadm (cache : Cache) (statistics : Statistics) :
      load ⟨cache, files, index, statistics⟩ "m" = .ok y := (load_congr rfl rfl _).trans hy
  simp [Busy.start, Busy.play, Busy.turn, Stage.advance, lookup, Cache.lookup, OrderedMap.find?,
    keep, hk, hm, hloadk, hloadm, hkept, hkeptAgain, hkeptOther]

/-- The row of half a megabyte under `k`. -/
def halfRow : Row := ⟨Bytes.ofString "k", 524288, 524288, 1, 57⟩

/-- The row of a megabyte under `m`. -/
def wholeRow : Row := ⟨Bytes.ofString "m", 1048576, 1048576, 1, 524345⟩

/-- A header, and right behind it the table of both rows. The data comes last, so that opening the
file does not look at it. -/
def megabyteHead : Bytes :=
  let octets := [halfRow, wholeRow].flatMap Row.encode
  let stored := Deflate.storeZlib octets
  File.signature ++ List.replicate 15 0 ++ Bytes.ofNat 4 0 ++ Bytes.ofNat 4 0 ++ Bytes.ofNat 4 9 ++
    Bytes.ofNat 4 File.knownVersion ++ Bytes.ofNat 4 stored.length ++
    Bytes.ofNat 4 octets.length ++ stored

/-- The data of the first row. -/
def halfMegabyte : Bytes := List.replicate 524288 1

theorem length_halfMegabyte : halfMegabyte.length = 524288 := by
  rw [halfMegabyte, List.length_replicate]

/-- The data of the second row. -/
def wholeMegabyte : Bytes := List.replicate 1048576 2

theorem length_wholeMegabyte : wholeMegabyte.length = 1048576 := by
  rw [wholeMegabyte, List.length_replicate]

/-- The whole file. -/
def megabyteFile : Bytes := megabyteHead ++ (halfMegabyte ++ wholeMegabyte)

/-- The store that has opened the file, with a cache of a megabyte. -/
def megabyteStore : Store :=
  run (Disk.empty.putFile ["a.grf"] megabyteFile) [] (new (Cache.octets 1)) [.openFile "/a.grf" 0]

theorem exists_opened_megabyteFile :
    ∃ f, File.opened? (Disk.empty.putFile ["a.grf"] megabyteFile) [] "/a.grf" 0 = some f ∧
      f.rows? = some [halfRow, wholeRow] ∧ f.data = some megabyteFile := by
  have hread (data : Bytes) :
      (Disk.empty.putFile ["a.grf"] data).read [] "/a.grf" = .ok data := by rfl
  have hfile (data : Bytes) : (Disk.empty.putFile ["a.grf"] data).isFile [] "/a.grf" = true := by
    rfl
  have hworked : ((File.mk "/a.grf" 0 0 0 none {}).load megabyteFile).2.2 = true := by
    decide +kernel
  have hoffset : ((File.mk "/a.grf" 0 0 0 none {}).readHeader megabyteFile).2.map Prod.snd =
      some 0 := by
    decide +kernel
  have htable : (File.readTable "/a.grf" megabyteFile 0).toOption.map Prod.fst =
      some [halfRow, wholeRow] := by
    decide +kernel
  rcases hload : (File.mk "/a.grf" 0 0 0 none {}).load megabyteFile with ⟨f, notices, worked⟩
  obtain rfl : worked = true := by simpa [hload] using hworked
  obtain ⟨hpath, -, hdata, -⟩ := File.rows?_of_load hload
  refine ⟨f, ?_, ?_, hdata⟩
  · simp only [File.opened?, hfile, if_true, File.open, hread, hload]
  · simp only [File.rows?, hdata, hpath, Option.bind_some, File.offset_readHeader f
      (File.mk "/a.grf" 0 0 0 none {}), hoffset, htable]

theorem load_megabyteStore :
    megabyteStore.load "k" = .ok halfMegabyte ∧ megabyteStore.load "m" = .ok wholeMegabyte := by
  obtain ⟨f, hopened, hrows, hdata⟩ := exists_opened_megabyteFile
  have hfiles : megabyteStore.files = [] ++ f :: [] := by
    simp only [megabyteStore, run, List.foldl_cons, List.foldl_nil, after, open_eq, hopened,
      Option.map_some, Option.getD_some, addFile, new, insertFile, List.nil_append]
  have hhead : megabyteHead.length = File.headerSize + halfRow.offset := by decide +kernel
  have hfirst : megabyteFile.slice (File.headerSize + halfRow.offset) halfRow.alignedSize =
      halfMegabyte :=
    Bytes.slice_append wholeMegabyte hhead length_halfMegabyte
  have hsecond : megabyteFile.slice (File.headerSize + wholeRow.offset) wholeRow.alignedSize =
      wholeMegabyte := by
    have hbefore : (megabyteHead ++ halfMegabyte).length =
        File.headerSize + wholeRow.offset := by
      rw [List.length_append, hhead, length_halfMegabyte]
      rfl
    have hfile : megabyteFile = (megabyteHead ++ halfMegabyte) ++ (wholeMegabyte ++ []) := by
      rw [megabyteFile, List.append_nil, List.append_assoc]
    rw [hfile]
    exact Bytes.slice_append [] hbefore length_wholeMegabyte
  have hhalf : f.Holds halfRow halfMegabyte := by
    refine ⟨by decide, by decide, by decide, by decide, ⟨[], [wholeRow], hrows, ?_⟩,
      ⟨_, hdata, hfirst⟩⟩
    exact List.forall_mem_singleton.mpr fun hkey => absurd hkey (by decide)
  have hwhole : f.Holds wholeRow wholeMegabyte :=
    ⟨by decide, by decide, by decide, by decide, ⟨[halfRow], [], hrows, by simp⟩,
      ⟨_, hdata, hsecond⟩⟩
  have hlinked : megabyteStore.Linked (Disk.empty.putFile ["a.grf"] megabyteFile) [] :=
    linked_run _ _
  constructor
  · exact (load_of_holds hlinked hfiles hhalf (by simp) (by decide) length_halfMegabyte).trans
      (inflateEntry_of_storedSize_eq rfl _)
  · exact (load_of_holds hlinked hfiles hwhole (by simp) (by decide) length_wholeMegabyte).trans
      (inflateEntry_of_storedSize_eq rfl _)

/-- Two reads of `k` have both missed it, and both kept it. -/
def missedTwice : Busy :=
  (Busy.start megabyteStore ["k", "k", "m"]).play [0, 1, 0, 1, 0, 1]

theorem cache_missedTwice :
    missedTwice.store.cache = ⟨1048576, ⟨[("k", halfMegabyte)]⟩, 1048576⟩ ∧
      (missedTwice.play [2, 2, 2]).store.cache =
        ⟨1048576, ⟨[("m", wholeMegabyte)]⟩, 1572864⟩ := by
  obtain ⟨hk, hm⟩ := load_megabyteStore
  have hcache : megabyteStore.cache = (new (Cache.octets 1)).cache := by
    simp only [megabyteStore, run, List.foldl_cons, List.foldl_nil, cache_openFile]
  have hoctets : Cache.octets 1 = 1048576 := by decide
  have hcounts := cache_play_of_missed_twice hcache hk hm
    (by rw [length_halfMegabyte, hoctets]; omega) (by rw [length_wholeMegabyte, hoctets]; omega)
    (by rw [length_halfMegabyte, length_wholeMegabyte, hoctets]; omega)
  rw [length_halfMegabyte, length_wholeMegabyte, hoctets] at hcounts
  simp only [Nat.reduceAdd] at hcounts
  rw [missedTwice]
  exact hcounts

/-- When both reads of `k` are done, the cache counts a megabyte and holds half of one. A read of `m`
makes room, and then the cache counts more than its limit. A cache whose limit is negative is above
it from the start. -/
theorem not_intact_of_missed_twice :
    (missedTwice.store.cache.size = 1048576 ∧
        missedTwice.store.cache.entries.weight = 524288) ∧
      ((missedTwice.play [2, 2, 2]).store.cache.size = 1572864 ∧
        (missedTwice.play [2, 2, 2]).store.cache.entries.weight = 1048576 ∧
        (missedTwice.play [2, 2, 2]).store.cache.limit = 1048576) ∧
      ((new (Cache.octets (-1))).cache.size = 0 ∧
        (new (Cache.octets (-1))).cache.limit = -1048576) := by
  have hbelow : Cache.octets (-1) = -1048576 := by decide
  obtain ⟨htwice, hbehind⟩ := cache_missedTwice
  rw [htwice, hbehind]
  simp only [OrderedMap.weight_mk_singleton, length_halfMegabyte, length_wholeMegabyte, hbelow,
    and_self, true_and]
  exact ⟨rfl, rfl⟩

end ArchiveExport.Grf.Store
