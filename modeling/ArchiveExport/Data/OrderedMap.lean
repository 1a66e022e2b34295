/-!
# Maps in order of first insertion

A finite map kept as the list of its pairs. Inserting under a new key appends the pair; inserting
under a key that is present replaces its value and leaves its place alone. Archive indexes,
object members and group tables are all listed in this order.
-/

namespace ArchiveExport

/-- A finite map whose pairs are listed by first insertion of their keys. -/
structure OrderedMap (κ α : Type) where
  entries : List (κ × α) := []

namespace OrderedMap

variable {κ α β : Type} [DecidableEq κ]

/-- The map without pairs. -/
def empty : OrderedMap κ α := ⟨[]⟩

/-- The value under a key. -/
def find? (m : OrderedMap κ α) (key : κ) : Option α :=
  (m.entries.find? fun e => e.1 = key).map Prod.snd

/-- Whether a key has a value. -/
def contains (m : OrderedMap κ α) (key : κ) : Bool :=
  m.entries.any fun e => e.1 = key

/-- The keys in order of first insertion. -/
def keys (m : OrderedMap κ α) : List κ :=
  m.entries.map Prod.fst

/-- The values, each at the place of its key. -/
def values (m : OrderedMap κ α) : List α :=
  m.entries.map Prod.snd

/-- The number of pairs. -/
def size (m : OrderedMap κ α) : Nat :=
  m.entries.length

/-- Apply `f` to the value under a key, or append `f none` as the value of a new key. -/
def alter (m : OrderedMap κ α) (key : κ) (f : Option α → α) : OrderedMap κ α :=
  if m.contains key then
    ⟨m.entries.map fun e => if e.1 = key then (key, f (some e.2)) else e⟩
  else
    ⟨m.entries ++ [(key, f none)]⟩

/-- Set the value under a key. -/
def insert (m : OrderedMap κ α) (key : κ) (value : α) : OrderedMap κ α :=
  m.alter key fun _ => value

/-- Insert the pairs of a list from left to right. -/
def insertAll (m : OrderedMap κ α) (pairs : List (κ × α)) : OrderedMap κ α :=
  pairs.foldl (fun m e => m.insert e.1 e.2) m

/-- The map that a list of pairs spells out, later pairs replacing earlier ones. -/
def ofList (pairs : List (κ × α)) : OrderedMap κ α :=
  empty.insertAll pairs

/-- Remove a key and its value. -/
def erase (m : OrderedMap κ α) (key : κ) : OrderedMap κ α :=
  ⟨m.entries.filter fun e => ¬ e.1 = key⟩

theorem contains_iff_mem_keys (m : OrderedMap κ α) (key : κ) :
    m.contains key = true ↔ key ∈ m.keys := by
  simp [contains, keys]

/-- Replacing a value keeps the keys; a new key comes last. -/
theorem keys_alter (m : OrderedMap κ α) (key : κ) (f : Option α → α) :
    (m.alter key f).keys = if m.contains key then m.keys else m.keys ++ [key] := by
  unfold alter
  split
  · simp only [keys, List.map_map]
    refine List.map_congr_left fun e _ => ?_
    by_cases h : e.1 = key <;> simp [h]
  · simp [keys]

/-- The keys stay pairwise different. -/
theorem nodup_keys_alter (m : OrderedMap κ α) (key : κ) (f : Option α → α)
    (h : m.keys.Nodup) : (m.alter key f).keys.Nodup := by
  rw [keys_alter]
  split
  · exact h
  · next hkey =>
    have hmem : key ∉ m.keys := fun hk => hkey ((contains_iff_mem_keys m key).2 hk)
    rw [List.nodup_append]
    exact ⟨h, by simp, fun a ha b hb => by
      rw [List.mem_singleton] at hb
      subst hb
      exact fun hab => hmem (hab ▸ ha)⟩

end OrderedMap

end ArchiveExport
