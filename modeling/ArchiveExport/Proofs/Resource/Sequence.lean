import ArchiveExport.Bytes.Basic

/-!
# Values written one behind the other

How single values are written says how a list of them is: each value's octets stand behind those
of the value before it. Where such octets are cut, whole values stand in front of the cut, and the
cut goes through one value or stands right in front of it.
-/

namespace ArchiveExport

variable {α : Type} {w : α → Bytes → Prop} {a : α} {values : List α} {bs cut missing : Bytes}

/-- Two strings of octets are cut in the first one, or behind it in the second one. -/
theorem eq_append_or_eq_append {first more : Bytes} (h : cut ++ missing = first ++ more) :
    (∃ gap, gap ≠ [] ∧ cut ++ gap = first ∧ missing = gap ++ more) ∨
      ∃ begun, cut = first ++ begun ∧ begun ++ missing = more := by
  rcases List.append_eq_append_iff.mp h with ⟨gap, hfirst, hmissing⟩ | ⟨begun, hcut, hmore⟩
  · by_cases hgap : gap = []
    · subst hgap
      exact Or.inr ⟨[], by simpa using hfirst.symm, by simpa using hmissing⟩
    · exact Or.inl ⟨gap, hgap, hfirst.symm, hmissing⟩
  · exact Or.inr ⟨begun, hcut, hmore.symm⟩

theorem length_lt_of_append_eq (h : cut ++ missing = bs) (hmissing : missing ≠ []) :
    cut.length < bs.length := by
  rw [← h, List.length_append]
  exact Nat.lt_add_of_pos_right (List.length_pos_iff.mpr hmissing)

theorem length_lt_of_eq_append {more : Bytes} (h : missing = cut ++ more) (hcut : cut ≠ []) :
    more.length < missing.length := by
  rw [h, List.length_append]
  exact Nat.lt_add_of_pos_left (List.length_pos_iff.mpr hcut)

/-- The octets of some values, one behind the other, where `w` says how one value is written. -/
inductive WrittenInTurn (w : α → Bytes → Prop) : List α → Bytes → Prop
  | nil : WrittenInTurn w [] []
  | cons {a values bs rest} (hfirst : w a bs) (hrest : WrittenInTurn w values rest) :
      WrittenInTurn w (a :: values) (bs ++ rest)

/-- The sum of the sizes of some values. -/
def total (size : α → Nat) (values : List α) : Nat :=
  values.foldr (fun a octets => size a + octets) 0

theorem total_const (width : Nat) (values : List α) :
    total (fun _ => width) values = width * values.length := by
  induction values with
  | nil => rfl
  | cons a values ih =>
      have hsum : total (fun _ => width) (a :: values) =
          width + total (fun _ => width) values := rfl
      rw [hsum, ih, List.length_cons, Nat.mul_add_one, Nat.add_comm]

theorem total_concat (size : α → Nat) (values : List α) (a : α) :
    total size (values ++ [a]) = total size values + size a := by
  induction values with
  | nil => exact Nat.add_comm _ _
  | cons b values ih =>
      have hsum : total size (b :: values ++ [a]) = size b + total size (values ++ [a]) := rfl
      rw [hsum, ih, ← Nat.add_assoc]
      rfl

namespace WrittenInTurn

theorem eq_nil (h : WrittenInTurn w ([] : List α) bs) : bs = [] := by
  cases h
  rfl

/-- Where each value can be written, the values can be written one behind the other. -/
theorem exists_of_forall (h : ∀ a ∈ values, ∃ bs, w a bs) : ∃ bs, WrittenInTurn w values bs := by
  induction values with
  | nil => exact ⟨[], .nil⟩
  | cons a values ih =>
      obtain ⟨first, hfirst⟩ := h a List.mem_cons_self
      obtain ⟨rest, hrest⟩ := ih fun b hb => h b (List.mem_cons_of_mem a hb)
      exact ⟨first ++ rest, .cons hfirst hrest⟩

/-- The first values stand in front of the others. -/
theorem exists_take_drop (h : WrittenInTurn w values bs) (k : Nat) :
    ∃ front back, WrittenInTurn w (values.take k) front ∧
      WrittenInTurn w (values.drop k) back ∧ bs = front ++ back := by
  induction h generalizing k with
  | nil => exact ⟨[], [], by rw [List.take_nil]; exact .nil, by rw [List.drop_nil]; exact .nil, rfl⟩
  | @cons a values first bs hfirst hmore ih =>
      cases k with
      | zero => exact ⟨[], first ++ bs, .nil, .cons hfirst hmore, rfl⟩
      | succ k =>
          obtain ⟨front, back, hfront, hback, rfl⟩ := ih k
          exact ⟨first ++ front, back, .cons hfirst hfront, hback, (List.append_assoc _ _ _).symm⟩

theorem length_eq_total {size : α → Nat} (hsize : ∀ a bs, w a bs → bs.length = size a)
    (h : WrittenInTurn w values bs) : bs.length = total size values := by
  induction h with
  | nil => rfl
  | @cons a values first bs hfirst hmore ih =>
      rw [List.length_append, hsize a first hfirst, ih]
      rfl

theorem length_eq {width : Nat} (hwidth : ∀ a bs, w a bs → bs.length = width)
    (h : WrittenInTurn w values bs) : bs.length = width * values.length := by
  rw [h.length_eq_total hwidth, total_const]

end WrittenInTurn

/-- The value that so many octets reach into without holding all of it, and how many of the octets
are its own. -/
def torn? (size : α → Nat) : List α → Nat → Option (α × Nat)
  | [], _ => none
  | a :: values, n => if n < size a then some (a, n) else torn? size values (n - size a)

theorem torn?_eq_none {size : α → Nat} {n : Nat} (h : total size values ≤ n) :
    torn? size values n = none := by
  induction values generalizing n with
  | nil => rfl
  | cons a values ih =>
      have hsum : total size (a :: values) = size a + total size values := rfl
      rw [torn?, if_neg (by omega), ih (by omega)]

/-- Where octets are cut, whole values stand in front of one that is torn. -/
theorem WrittenInTurn.exists_torn {size : α → Nat} (hsize : ∀ a bs, w a bs → bs.length = size a)
    (h : WrittenInTurn w values bs) (hcut : cut ++ missing = bs) (hmissing : missing ≠ []) :
    ∃ before a after front octets begun gap, values = before ++ a :: after ∧
      WrittenInTurn w before front ∧ w a octets ∧ cut = front ++ begun ∧
      begun ++ gap = octets ∧ gap ≠ [] ∧ torn? size values cut.length = some (a, begun.length) := by
  induction h generalizing cut with
  | nil => exact absurd (List.append_eq_nil_iff.mp hcut).2 hmissing
  | @cons a values first bs hfirst hmore ih =>
      rcases eq_append_or_eq_append hcut with ⟨gap, hgap, hwhole, -⟩ | ⟨begun, rfl, hbegun⟩
      · refine ⟨[], a, values, [], _, cut, gap, rfl, .nil, hfirst, rfl, hwhole, hgap, ?_⟩
        rw [torn?, ← hsize a _ hfirst, if_pos (length_lt_of_append_eq hwhole hgap)]
      · obtain ⟨before, b, after, front, octets, rest, gap, rfl, hbefore, hb, rfl, hrest, hgap,
          htorn⟩ := ih hbegun
        refine ⟨a :: before, b, after, first ++ front, octets, rest, gap, rfl,
          .cons hfirst hbefore, hb, (List.append_assoc _ _ _).symm, hrest, hgap, ?_⟩
        rw [torn?, ← hsize a _ hfirst, List.length_append, if_neg (by omega),
          Nat.add_sub_cancel_left, htorn]

end ArchiveExport
