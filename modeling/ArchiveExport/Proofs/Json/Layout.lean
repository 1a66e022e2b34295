import ArchiveExport.Json.Printer
import ArchiveExport.Json.Reader
import ArchiveExport.Proofs.Json.Text
import ArchiveExport.Proofs.Number.Rounding

/-!
# How a tree is laid out

Whatever the indentation, an array or an object is written as its items between brackets, with
commas and blanks between them and the members in the order of their names. Trees that can be
written and read back are named here, and how deep their brackets are nested.
-/

namespace ArchiveExport.Json

open Text (Spelled)

variable {τ : Type} {layout : Layout} {gap : List Char} {pieces : List (List Char)}
  {xs : List (Json τ)} {ms : List (τ × Json τ)} {room : Nat}

/-! ### How deep brackets are nested -/

mutual

/-- How many brackets of a tree stand inside of one another. -/
def height : Json τ → Nat
  | .array xs => itemsHeight xs + 1
  | .object ms => membersHeight ms + 1
  | _ => 0

/-- How many brackets of an item stand inside of one another, at most. -/
def itemsHeight : List (Json τ) → Nat
  | [] => 0
  | x :: xs => max x.height (itemsHeight xs)

/-- How many brackets of the value of a member stand inside of one another, at most. -/
def membersHeight : List (τ × Json τ) → Nat
  | [] => 0
  | (_, x) :: ms => max x.height (membersHeight ms)

end

theorem height_array_le_iff :
    (array xs).height ≤ room ↔ ∃ inner, room = inner + 1 ∧ ∀ x ∈ xs, x.height ≤ inner := by
  have hitems (inner : Nat) : itemsHeight xs ≤ inner ↔ ∀ x ∈ xs, x.height ≤ inner := by
    induction xs with
    | nil => simp [itemsHeight]
    | cons x xs ih => rw [itemsHeight, Nat.max_le, ih, List.forall_mem_cons]
  cases room with
  | zero => simp [height]
  | succ inner => simp [height, hitems]

theorem height_object_le_iff :
    (object ms).height ≤ room ↔ ∃ inner, room = inner + 1 ∧ ∀ m ∈ ms, m.2.height ≤ inner := by
  have hmembers (inner : Nat) : membersHeight ms ≤ inner ↔ ∀ m ∈ ms, m.2.height ≤ inner := by
    induction ms with
    | nil => simp [membersHeight]
    | cons m ms ih => rw [membersHeight, Nat.max_le, ih, List.forall_mem_cons]
  cases room with
  | zero => simp [height]
  | succ inner => simp only [height, hmembers, Nat.add_right_cancel_iff, Nat.add_le_add_iff_right,
      exists_eq_left']

section Legible

variable [Spelled τ]

/-! ### Trees that are read back -/

/-- A tree whose text is read back: its integers are not too long, its real numbers are in normal
form, no text has a pair in two halves, and no object has two members of one name. -/
inductive Legible : Json τ → Prop
  | null : Legible .null
  | bool (b : Bool) : Legible (.bool b)
  | integer {n : Int} (h : (Nat.toDigits 10 n.natAbs).length ≤ maxDigits) : Legible (.integer n)
  | real {x : Binary64} (h : x.Canonical) : Legible (.real x)
  | text {s : τ} (h : Text.Unpaired (Spelled.points s)) : Legible (.text s)
  | array {xs : List (Json τ)} (h : ∀ x ∈ xs, Legible x) : Legible (.array xs)
  | object {ms : List (τ × Json τ)} (hnames : (ms.map Prod.fst).Nodup)
      (hunpaired : ∀ m ∈ ms, Text.Unpaired (Spelled.points m.1)) (h : ∀ m ∈ ms, Legible m.2) :
      Legible (.object ms)

/-- A text of characters is read back. -/
theorem legible_text (s : String) : Legible (.text s) :=
  .text (Text.unpaired_points s)

theorem legible_object {ms : List (String × Json)} (hnames : (ms.map Prod.fst).Nodup)
    (h : ∀ m ∈ ms, Legible m.2) : Legible (.object ms) :=
  .object hnames (fun m _ => Text.unpaired_points m.1) h

/-- The integers that fit into a machine word are far from being too long. -/
theorem legible_integer {n : Int} (h : n.natAbs < 2 ^ 64) : Legible (.integer n : Json τ) := by
  have hlength : (Nat.toDigits 10 n.natAbs).length ≤ 20 := by
    rw [Nat.length_toDigits_le_iff (by decide) (by decide)]
    omega
  have hmax : 20 ≤ maxDigits := by decide
  exact .integer (hlength.trans hmax)

end Legible

variable [LE τ] [DecidableLE τ]

/-! ### Trees with sorted members -/

mutual

/-- The tree with the members of each object in the order of their names. -/
def sorted : Json τ → Json τ
  | .array xs => .array (sortedItems xs)
  | .object ms => .object (sortMembers (sortedMembers ms))
  | json => json

/-- Sort the members inside of the items of an array. -/
def sortedItems : List (Json τ) → List (Json τ)
  | [] => []
  | x :: xs => x.sorted :: sortedItems xs

/-- Sort the members inside of the values of members. -/
def sortedMembers : List (τ × Json τ) → List (τ × Json τ)
  | [] => []
  | (name, x) :: ms => (name, x.sorted) :: sortedMembers ms

end

theorem sorted_array (xs : List (Json τ)) : (array xs).sorted = .array (xs.map sorted) := by
  have hitems : ∀ xs : List (Json τ), sortedItems xs = xs.map sorted := by
    intro xs
    induction xs with
    | nil => rfl
    | cons x xs ih => rw [sortedItems, ih, List.map_cons]
  rw [sorted, hitems]

/-- Sorting looks at the names alone. -/
theorem sortMembers_map {α β : Type} (f : α → β) (ms : List (τ × α)) :
    sortMembers (ms.map fun m => (m.1, f m.2)) = (sortMembers ms).map fun m => (m.1, f m.2) := by
  unfold sortMembers
  rw [List.map_mergeSort (s := fun a b : τ × β => decide (a.1 ≤ b.1))]
  intro a _ b _
  rfl

theorem mem_sortMembers {α : Type} {ms : List (τ × α)} {m : τ × α} :
    m ∈ sortMembers ms ↔ m ∈ ms :=
  List.mem_mergeSort

theorem nodup_names_sortMembers {α : Type} {ms : List (τ × α)}
    (h : (ms.map Prod.fst).Nodup) : ((sortMembers ms).map Prod.fst).Nodup :=
  ((List.mergeSort_perm ms _).map Prod.fst).nodup_iff.mpr h

theorem sorted_object (ms : List (τ × Json τ)) :
    (object ms).sorted = .object ((sortMembers ms).map fun m => (m.1, m.2.sorted)) := by
  have hmembers : ∀ ms : List (τ × Json τ),
      sortedMembers ms = ms.map fun m => (m.1, m.2.sorted) := by
    intro ms
    induction ms with
    | nil => rfl
    | cons m ms ih => rw [sortedMembers, ih, List.map_cons]
  rw [sorted, hmembers, sortMembers_map sorted]

/-! ### Brackets -/

theorem isGap_nil : IsGap [] :=
  fun _ hc => absurd hc List.not_mem_nil

theorem isGap_singleton {c : Char} (h : isSpace c = true) : IsGap [c] := by
  intro d hd
  rw [List.mem_singleton.mp hd, h]

theorem isGap_newline (layout : Layout) (depth : Nat) : IsGap (layout.newline depth) := by
  unfold Layout.newline
  intro c hc
  split at hc
  next => exact absurd hc List.not_mem_nil
  next =>
    rcases List.mem_cons.mp hc with rfl | hblank
    · rfl
    · rw [List.eq_of_mem_replicate hblank]
      rfl

theorem exists_separator_eq (layout : Layout) (depth : Nat) :
    ∃ gap, IsGap gap ∧ layout.separator depth = ',' :: gap := by
  unfold Layout.separator
  split
  · exact ⟨[' '], isGap_singleton rfl, rfl⟩
  · exact ⟨_, isGap_newline layout depth, rfl⟩

theorem joined_intersperse {before after : List Char} (hgap : IsGap gap)
    (hbefore : IsGap before) (hafter : IsGap after) (hne : pieces ≠ []) :
    Joined pieces (before ++ (((List.intersperse (',' :: gap) pieces).flatten) ++ after)) := by
  induction pieces generalizing before with
  | nil => exact absurd rfl hne
  | cons piece pieces ih =>
      cases pieces with
      | nil =>
          rw [List.intersperse_singleton, List.flatten_singleton]
          exact .last hbefore hafter
      | cons next pieces =>
          have hrest := ih hgap (List.cons_ne_nil next pieces)
          rw [List.intersperse_cons_cons, List.flatten_cons, List.flatten_cons, List.append_assoc,
            List.append_assoc]
          exact .cons hbefore isGap_nil (List.cons_ne_nil next pieces) hrest

/-- Pieces between brackets have commas between them and blanks around them. -/
theorem exists_enclose_eq (layout : Layout) (depth : Nat) (first last : Char)
    (pieces : List (List Char)) :
    ∃ cs, Joined pieces cs ∧ layout.enclose depth first last pieces = first :: (cs ++ [last]) := by
  unfold Layout.enclose
  split
  next hempty =>
    rw [List.isEmpty_iff.mp hempty]
    exact ⟨[], .nil isGap_nil, rfl⟩
  next hempty =>
    have hne : pieces ≠ [] := fun h => hempty (List.isEmpty_iff.mpr h)
    obtain ⟨gap, hgap, hseparator⟩ := exists_separator_eq layout (depth + 1)
    refine ⟨_, joined_intersperse hgap (isGap_newline layout (depth + 1))
      (isGap_newline layout depth) hne, ?_⟩
    rw [hseparator]
    simp only [List.cons_append, List.append_assoc]

variable [Spelled τ]

theorem write_array (layout : Layout) (depth : Nat) (xs : List (Json τ)) :
    write layout depth (.array xs) =
      layout.enclose depth '[' ']' (xs.map (write layout (depth + 1))) := by
  have hitems : ∀ xs : List (Json τ),
      writeItems layout (depth + 1) xs = xs.map (write layout (depth + 1)) := by
    intro xs
    induction xs with
    | nil => rfl
    | cons x xs ih => rw [writeItems, ih, List.map_cons]
  rw [write, hitems]

theorem exists_write_array (layout : Layout) (depth : Nat) (xs : List (Json τ)) :
    ∃ cs, Joined (xs.map (write layout (depth + 1))) cs ∧
      write layout depth (.array xs) = '[' :: (cs ++ [']']) := by
  rw [write_array]
  exact exists_enclose_eq layout depth '[' ']' _

/-- A member as it is written in front of the text of its value. -/
def writeMember (layout : Layout) (name : τ) (value : List Char) : List Char :=
  writeText layout name ++ ':' :: ' ' :: value

theorem write_object (layout : Layout) (depth : Nat) (ms : List (τ × Json τ)) :
    write layout depth (.object ms) =
      layout.enclose depth '\x7b' '\x7d' ((sortMembers ms).map fun m =>
        writeMember layout m.1 (write layout (depth + 1) m.2)) := by
  have hmembers : ∀ ms : List (τ × Json τ), writeMembers layout (depth + 1) ms =
      ms.map fun m => (m.1, write layout (depth + 1) m.2) := by
    intro ms
    induction ms with
    | nil => rfl
    | cons m ms ih => rw [writeMembers, ih, List.map_cons]
  rw [write, hmembers, sortMembers_map (write layout (depth + 1)), List.map_map]
  rfl

theorem exists_write_object (layout : Layout) (depth : Nat) (ms : List (τ × Json τ)) :
    ∃ cs, Joined ((sortMembers ms).map fun m =>
        writeMember layout m.1 (write layout (depth + 1) m.2)) cs ∧
      write layout depth (.object ms) = '\x7b' :: (cs ++ ['\x7d']) := by
  rw [write_object]
  exact exists_enclose_eq layout depth '\x7b' '\x7d' _

end ArchiveExport.Json
