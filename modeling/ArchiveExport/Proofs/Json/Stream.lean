import ArchiveExport.Json.Stream
import ArchiveExport.Proofs.Json.Layout

/-!
# What is written before writing breaks off

A tree that is legible is written as its text as long as there is room for its brackets. A tree with
an integer that is too long, or with more brackets inside of one another than there is room for, is
never written to its end.
-/

namespace ArchiveExport.Json

open Text (Spelled)

variable {layout : Layout} {room depth n : Nat} {before : List Char}

namespace Written

variable {first second : Written} {pieces : List Written}

theorem fault_andThen_eq_none_iff :
    (first.andThen second).fault = none ↔ first.fault = none ∧ second.fault = none := by
  unfold andThen
  cases hfault : first.fault <;> simp [hfault]

theorem fault_join_eq_none_iff :
    (join pieces).fault = none ↔ ∀ piece ∈ pieces, piece.fault = none := by
  induction pieces with
  | nil => simp [join]
  | cons piece pieces ih =>
      have hcons : join (piece :: pieces) = piece.andThen (join pieces) := rfl
      rw [hcons, fault_andThen_eq_none_iff, ih, List.forall_mem_cons]

/-- What is written in one piece. -/
def whole (text : List Char) : Written := ⟨text, none⟩

theorem join_cons_whole (text : List Char) (pieces : List Written) :
    join (whole text :: pieces) = ⟨text ++ (join pieces).text, (join pieces).fault⟩ := rfl

theorem join_intersperse_whole (gap : List Char) (texts : List (List Char)) :
    join (List.intersperse (whole gap) (texts.map whole)) =
      whole (List.intersperse gap texts).flatten := by
  induction texts with
  | nil => rfl
  | cons text texts ih =>
      cases texts with
      | nil => simp [join, andThen, whole]
      | cons next texts =>
          rw [List.map_cons] at ih
          rw [List.map_cons, List.map_cons, List.intersperse_cons_cons,
            List.intersperse_cons_cons, join_cons_whole, join_cons_whole, ih]
          simp [whole]

end Written

variable {τ : Type} [Spelled τ] [LE τ] [DecidableLE τ] {xs : List (Json τ)} {ms : List (τ × Json τ)}
  {j : Json τ}

/-! ### Legible trees -/

/-- The first item stands behind its own text, and each other one behind a separator. -/
theorem join_streamItems
    (h : ∀ x ∈ xs, ∀ before, stream layout room depth before x =
      ⟨before ++ write layout depth x, none⟩) (hne : xs ≠ []) :
    Written.join (streamItems layout room depth before xs) =
      ⟨before ++ (List.intersperse (layout.separator depth)
        (xs.map (write layout depth))).flatten, none⟩ := by
  induction xs generalizing before with
  | nil => exact absurd rfl hne
  | cons x xs ih =>
      obtain ⟨hx, hxs⟩ := List.forall_mem_cons.mp h
      have hcons : Written.join (streamItems layout room depth before (x :: xs)) =
          (stream layout room depth before x).andThen
            (Written.join (streamItems layout room depth (layout.separator depth) xs)) := rfl
      rw [hcons, hx]
      cases xs with
      | nil => simp [streamItems, Written.join, Written.andThen]
      | cons y ys =>
          rw [ih hxs (List.cons_ne_nil y ys)]
          simp [Written.andThen]

theorem streamMembers_eq (layout : Layout) (room depth : Nat) (ms : List (τ × Json τ)) :
    streamMembers layout room depth ms =
      ms.map fun m => (m.1, stream layout room depth [] m.2) := by
  induction ms with
  | nil => rfl
  | cons m ms ih => rw [streamMembers, ih, List.map_cons]

/-- A tree that is legible is written as its text, if there is room for its brackets. -/
theorem stream_eq (layout : Layout) (h : Legible j) (hroom : j.height ≤ room) (depth : Nat)
    (before : List Char) :
    stream layout room depth before j = ⟨before ++ write layout depth j, none⟩ := by
  induction h generalizing room depth before with
  | null => rfl
  | bool b => cases b <;> rfl
  | @integer n h =>
      have hshort : isTooLong n = false := decide_eq_false (Nat.not_lt.mpr h)
      rw [stream, hshort]
      rfl
  | real h => rfl
  | text h => rfl
  | @array xs h ih =>
      obtain ⟨inner, rfl, hinner⟩ := height_array_le_iff.mp hroom
      rw [stream, write_array]
      cases xs with
      | nil => rfl
      | cons x xs =>
          rw [join_streamItems (fun x hx before => ih x hx (hinner x hx) (depth + 1) before)
            (List.cons_ne_nil x xs)]
          simp [Written.andThen, Layout.enclose]
  | @object ms hnames hunpaired h ih =>
      obtain ⟨inner, rfl, hinner⟩ := height_object_le_iff.mp hroom
      have hpieces : ((sortMembers ms).map fun m =>
          (Written.mk (writeText layout m.1 ++ [':', ' ']) none).andThen
            (stream layout inner (depth + 1) [] m.2)) =
          ((sortMembers ms).map fun m =>
            writeMember layout m.1 (write layout (depth + 1) m.2)).map Written.whole := by
        rw [List.map_map]
        refine List.map_congr_left fun m hm => ?_
        have hmem := mem_sortMembers.mp hm
        rw [ih m hmem (hinner m hmem) (depth + 1) []]
        simp [Written.andThen, Written.whole, writeMember]
      have hempty : (sortMembers ms).isEmpty = ms.isEmpty :=
        (List.mergeSort_perm ms _).isEmpty_eq
      rw [stream, write_object, streamMembers_eq,
        sortMembers_map (stream layout inner (depth + 1) []), List.map_map]
      simp only [Function.comp_def]
      rw [hpieces]
      have hseparator : (Written.mk (layout.separator (depth + 1)) none) =
          Written.whole (layout.separator (depth + 1)) := rfl
      rw [hseparator, Written.join_intersperse_whole, Layout.enclose, List.isEmpty_map, hempty]
      cases ms with
      | nil => simp [Written.andThen, Written.whole, sortMembers]
      | cons m ms => simp [Written.andThen, Written.whole]

/-! ### Trees that are not written to their end -/

theorem mem_intersperse {α : Type} {x gap : α} {ys : List α} (h : x ∈ ys) :
    x ∈ List.intersperse gap ys := by
  induction ys with
  | nil => cases h
  | cons y ys ih =>
      cases ys with
      | nil => exact h
      | cons z ys =>
          rw [List.intersperse_cons_cons]
          rcases List.mem_cons.mp h with rfl | h
          · exact List.mem_cons_self
          · exact List.mem_cons_of_mem _ (List.mem_cons_of_mem _ (ih h))

/-- An object is written to its end only if all its values are. -/
theorem fault_stream_member (h : (stream layout (room + 1) depth before (.object ms)).fault = none)
    {m : τ × Json τ} (hm : m ∈ ms) : (stream layout room (depth + 1) [] m.2).fault = none := by
  rw [stream, streamMembers_eq, sortMembers_map (stream layout room (depth + 1) []),
    List.map_map] at h
  have hpieces := Written.fault_join_eq_none_iff.mp
    (Written.fault_andThen_eq_none_iff.mp (Written.fault_andThen_eq_none_iff.mp h).2).1
  have hpiece : ((Written.mk (writeText layout m.1 ++ [':', ' ']) none).andThen
      (stream layout room (depth + 1) [] m.2)).fault = none :=
    hpieces _ (mem_intersperse (List.mem_map_of_mem (mem_sortMembers.mpr hm)))
  exact (Written.fault_andThen_eq_none_iff.mp hpiece).2

/-- An object is written as the names and the written values of its members say. -/
theorem stream_object_congr {ms ns : List (τ × Json τ)}
    (h : (ms.map fun m => (m.1, stream layout room (depth + 1) [] m.2)) =
      ns.map fun m => (m.1, stream layout room (depth + 1) [] m.2))
    (hempty : ms.isEmpty = ns.isEmpty) :
    stream layout (room + 1) depth before (.object ms) =
      stream layout (room + 1) depth before (.object ns) := by
  rw [stream, stream, streamMembers_eq, streamMembers_eq, h, hempty]

/-- A value inside of arrays, one inside of the other. -/
def nested (n : Nat) (j : Json τ) : Json τ :=
  match n with
  | 0 => j
  | n + 1 => .array [nested n j]

/-- Arrays are written to their end only if there is room for all of them. -/
theorem fault_stream_nested (h : room < n) (j : Json τ) :
    (stream layout room depth before (nested n j)).fault ≠ none := by
  induction room generalizing n depth before with
  | zero =>
      obtain ⟨n, rfl⟩ := Nat.exists_eq_add_one_of_ne_zero (Nat.ne_of_gt h)
      rw [nested, stream]
      exact Option.some_ne_none _
  | succ room ih =>
      obtain ⟨n, rfl⟩ := Nat.exists_eq_add_one_of_ne_zero (Nat.ne_of_gt (Nat.zero_lt_of_lt h))
      intro hwhole
      rw [nested, stream] at hwhole
      have hitems := (Written.fault_andThen_eq_none_iff.mp
        (Written.fault_andThen_eq_none_iff.mp hwhole).2).1
      have hitem := Written.fault_join_eq_none_iff.mp hitems _ List.mem_cons_self
      exact ih (Nat.lt_of_succ_lt_succ h) hitem

theorem isTooLong_pow {n : Nat} (h : maxDigits ≤ n) : isTooLong (10 ^ n) = true := by
  have hdigits : ¬ (Nat.toDigits 10 (10 ^ n)).length ≤ maxDigits := by
    rw [Nat.length_toDigits_le_iff (by decide) (by decide)]
    exact Nat.not_lt.mpr (Nat.pow_le_pow_right (by decide) h)
  have hsame : (10 ^ n : Int).natAbs = 10 ^ n := Int.natAbs_pow 10 n
  rw [isTooLong, hsame]
  exact decide_eq_true (Nat.not_le.mp hdigits)

/-- An integer with too many digits is not written. -/
theorem fault_stream_integer {k : Int} (h : isTooLong k = true) :
    (stream layout room depth before (.integer k : Json τ)).fault ≠ none := by
  rw [stream, if_pos h]
  exact Option.some_ne_none _

end ArchiveExport.Json
