import ArchiveExport.Proofs.Resource.Reading

/-!
# Operations on a reader

Records and names are read, and octets are passed over, by one reader in any order. Each operation
needs as many octets as its format or its count says. Where so many are left it takes them and looks
at no others; where they are not left it fails, and the reader stays where it is. So the operations
that succeed take pieces of the byte string that lie one behind the other.
-/

namespace ArchiveExport.Reader

variable {α : Type} {bs done rest : Bytes} {start : Nat}

/-- What is done to a reader: a record is read, octets are passed over, or a name is read. -/
inductive Operation : Type → Type 1
  | record {α : Type} (layout : Layout α) : Operation α
  | skip (count : Nat) : Operation Unit
  | name (length : Nat) : Operation String

namespace Operation

/-- How an operation is carried out. -/
def perform : {α : Type} → Operation α → Reading α
  | _, .record layout => Reading.record layout
  | _, .skip count => Reading.skip count
  | _, .name length => Reading.name length

/-- The number of octets that an operation needs. -/
def size : {α : Type} → Operation α → Nat
  | _, .record layout => layout.width
  | _, .skip count => count
  | _, .name length => length

/-- The value of an operation that takes some octets. -/
def meaning : {α : Type} → Operation α → Bytes → α
  | _, .record layout => layout.decode
  | _, .skip _ => fun _ => ()
  | _, .name _ => nameText

/-- Octets of the right number are taken, wherever they stand. -/
theorem perform_append (operation : Operation α) (h : operation.size = bs.length)
    (done rest : Bytes) :
    operation.perform (behind done (bs ++ rest)) =
      .ok (operation.meaning bs, behind (done ++ bs) rest) := by
  cases operation with
  | record layout =>
      have hblock := Reading.block_append bs done rest
      rw [← h] at hblock
      exact Reading.bind_of_ok hblock
  | skip count => exact (Reading.Spells.skip (congrArg Int.ofNat h.symm)).reads done rest
  | name length =>
      have hname := Reading.name_append bs done rest
      rw [← h] at hname
      exact hname

theorem exists_perform_of_lt (operation : Operation α) (h : rest.length < operation.size)
    (done : Bytes) : ∃ fault, operation.perform (behind done rest) = .error fault := by
  cases operation with
  | record layout => exact Reading.record_of_short layout h done
  | skip count =>
      have hleft : (behind done rest).remaining < (count : Int) := by
        rw [remaining_behind]
        exact Int.ofNat_lt.mpr h
      exact ⟨_, if_pos hleft⟩
  | name length => exact (Reading.Takes.name length).short done rest h

end Operation

/-- An operation that was tried: the reader before it and after it, and what it led to. -/
structure Step where
  {α : Type}
  operation : Operation α
  before : Reader
  after : Reader
  result : Except Fault α

/-- Try an operation. One that fails leaves the reader where it is. -/
def attempt (r : Reader) (operation : Operation α) : Step :=
  match operation.perform r with
  | .ok (value, next) => ⟨operation, r, next, .ok value⟩
  | .error fault => ⟨operation, r, r, .error fault⟩

/-- Try operations one after the other. -/
def attemptAll (r : Reader) : List (Σ α, Operation α) → List Step
  | [] => []
  | ⟨_, operation⟩ :: operations =>
    r.attempt operation :: (r.attempt operation).after.attemptAll operations

namespace Step

variable {step : Step}

/-- The octets between the reader before a step and the reader after it. -/
def piece (step : Step) : Bytes :=
  step.before.data.slice step.before.offset.toNat (step.after.offset - step.before.offset).toNat

/-- A step on the octets of a byte string stays within them. It fails exactly where it needs more
octets than are left, and then nothing moves; else the reader moves on by the size of the operation,
and its value is told by the octets between alone. -/
structure Orderly (bs : Bytes) (step : Step) : Prop where
  data_before : step.before.data = bs
  data_after : step.after.data = bs
  bounds_before : 0 ≤ step.before.offset ∧ step.before.offset ≤ bs.length
  bounds_after : 0 ≤ step.after.offset ∧ step.after.offset ≤ bs.length
  fails_iff : (∃ fault, step.result = .error fault) ↔
    step.before.remaining < step.operation.size
  stays : ∀ fault, step.result = .error fault → step.after = step.before
  moves : ∀ value, step.result = .ok value →
    step.after.offset = step.before.offset + step.operation.size ∧
      value = step.operation.meaning step.piece

/-- Each step begins with the reader that the one before it left. -/
inductive InTurn : Reader → List Step → Reader → Prop
  | nil (r : Reader) : InTurn r [] r
  | cons {step : Step} {steps : List Step} {r last : Reader} (hbefore : step.before = r)
      (h : InTurn step.after steps last) : InTurn r (step :: steps) last

end Step

theorem bounds_behind (done rest : Bytes) :
    0 ≤ (behind done rest).offset ∧ (behind done rest).offset ≤ (done ++ rest).length := by
  rw [List.length_append]
  exact ⟨Int.natCast_nonneg done.length, Int.ofNat_le.mpr (Nat.le_add_right _ _)⟩

theorem behind_take_drop (h : start ≤ bs.length) :
    behind (bs.take start) (bs.drop start) = ofBytes bs start := by
  rw [behind, List.take_append_drop, List.length_take, Nat.min_eq_left h]

theorem attempt_append (operation : Operation α) (h : operation.size = bs.length)
    (done rest : Bytes) :
    (behind done (bs ++ rest)).attempt operation =
      ⟨operation, behind done (bs ++ rest), behind (done ++ bs) rest,
        .ok (operation.meaning bs)⟩ := by
  rw [attempt, operation.perform_append h]

theorem exists_attempt_of_lt (operation : Operation α) (h : rest.length < operation.size)
    (done : Bytes) :
    ∃ fault, (behind done rest).attempt operation =
      ⟨operation, behind done rest, behind done rest, .error fault⟩ := by
  obtain ⟨fault, hfault⟩ := operation.exists_perform_of_lt h done
  exact ⟨fault, by rw [attempt, hfault]⟩

/-- Between two readers of one byte string lie the octets that the second one has behind it and the
first one has not. -/
theorem slice_behind (done bs rest : Bytes) :
    (behind done (bs ++ rest)).data.slice (behind done (bs ++ rest)).offset.toNat
      ((behind (done ++ bs) rest).offset - (behind done (bs ++ rest)).offset).toNat = bs := by
  have hlength : ((done ++ bs).length : Int) - done.length = bs.length := by
    rw [List.length_append]
    omega
  change (done ++ (bs ++ rest)).slice done.length
    (((done ++ bs).length : Int) - done.length).toNat = bs
  rw [hlength, Int.toNat_natCast, Bytes.slice, List.drop_left, List.take_left]

/-- An operation takes some of the octets that are left, perhaps none of them. -/
theorem attempt_behind (operation : Operation α) (done rest : Bytes) :
    ∃ taken left, rest = taken ++ left ∧
      ((behind done rest).attempt operation).before = behind done rest ∧
      ((behind done rest).attempt operation).after = behind (done ++ taken) left ∧
      ((behind done rest).attempt operation).piece = taken ∧
      ((behind done rest).attempt operation).Orderly (done ++ rest) := by
  have hleft : (behind done rest).remaining < operation.size ↔ rest.length < operation.size := by
    rw [remaining_behind, Int.ofNat_lt]
  by_cases hsize : operation.size ≤ rest.length
  · have henough := mt hleft.mp (Nat.not_lt.mpr hsize)
    obtain ⟨taken, left, rfl, hlength⟩ : ∃ taken left, rest = taken ++ left ∧
        operation.size = taken.length :=
      ⟨rest.take operation.size, rest.drop operation.size, (List.take_append_drop _ _).symm,
        by rw [List.length_take, Nat.min_eq_left hsize]⟩
    have hafter := bounds_behind (done ++ taken) left
    have hpiece := slice_behind done taken left
    rw [List.append_assoc] at hafter
    rw [attempt_append operation hlength]
    refine ⟨taken, left, rfl, rfl, rfl, hpiece, rfl, List.append_assoc _ _ _,
      bounds_behind done (taken ++ left), hafter, iff_of_false ?_ henough, ?_, ?_⟩
    · rintro ⟨fault, hfault⟩
      cases hfault
    · intro fault hfault
      cases hfault
    · intro value hvalue
      cases hvalue
      refine ⟨?_, congrArg operation.meaning hpiece.symm⟩
      change ((done ++ taken).length : Int) = done.length + operation.size
      rw [hlength, List.length_append, Int.natCast_add]
  · have hshort := Nat.lt_of_not_le hsize
    obtain ⟨fault, hstep⟩ := exists_attempt_of_lt operation hshort done
    have hpiece := slice_behind done [] rest
    rw [List.append_nil, List.nil_append] at hpiece
    rw [hstep]
    refine ⟨[], rest, rfl, rfl, by rw [List.append_nil], hpiece, rfl, rfl,
      bounds_behind done rest, bounds_behind done rest,
      iff_of_true ⟨fault, rfl⟩ (hleft.mpr hshort), fun _ _ => rfl, ?_⟩
    intro value hvalue
    cases hvalue

/-- The operations of some steps are those that were to be tried. -/
theorem map_operation_attemptAll (r : Reader) (operations : List (Σ α, Operation α)) :
    (r.attemptAll operations).map (fun step => ⟨step.α, step.operation⟩) = operations := by
  induction operations generalizing r with
  | nil => rfl
  | cons operation operations ih =>
      have hfirst : (⟨(r.attempt operation.2).α, (r.attempt operation.2).operation⟩ :
          Σ α, Operation α) = operation := by
        unfold attempt
        split <;> rfl
      rw [attemptAll, List.map_cons, hfirst, ih]

/-- Operations that are tried in turn take pieces of what is left that lie one behind the other. -/
theorem attemptAll_behind (operations : List (Σ α, Operation α)) (done rest : Bytes) :
    ∃ taken left, rest = taken ++ left ∧
      Step.InTurn (behind done rest) ((behind done rest).attemptAll operations)
        (behind (done ++ taken) left) ∧
      ((behind done rest).attemptAll operations).flatMap Step.piece = taken ∧
      ∀ step ∈ (behind done rest).attemptAll operations, step.Orderly (done ++ rest) := by
  induction operations generalizing done rest with
  | nil =>
      refine ⟨[], rest, rfl, ?_, rfl, fun step hstep => absurd hstep List.not_mem_nil⟩
      rw [List.append_nil]
      exact .nil _
  | cons operation operations ih =>
      obtain ⟨taken, left, hrest, hbefore, hafter, hpiece, horderly⟩ :=
        attempt_behind operation.2 done rest
      obtain ⟨more, last, hleft, hturn, hpieces, hall⟩ := ih (done ++ taken) left
      rw [List.append_assoc] at hturn
      rw [List.append_assoc, ← hrest] at hall
      rw [attemptAll, hafter]
      refine ⟨taken ++ more, last, ?_, ?_, ?_, ?_⟩
      · rw [hrest, hleft, List.append_assoc]
      · exact .cons hbefore (hafter ▸ hturn)
      · rw [List.flatMap_cons, hpiece, hpieces]
      · exact List.forall_mem_cons.mpr ⟨horderly, hall⟩

/-- Whatever operations are tried from a place in a byte string on: each is tried where the one
before it left the reader and stays within the byte string; it fails exactly where it needs more
octets than are left, and then the reader does not move; else it moves by exactly the size of the
operation, and the value is told by the octets between. The pieces between lie one behind the other
from the start up to the place where the reader is left. -/
theorem attemptAll_takes_in_turn (bs : Bytes) (start : Nat) (hstart : start ≤ bs.length)
    (operations : List (Σ α, Operation α)) :
    ((ofBytes bs start).attemptAll operations).map (fun step => ⟨step.α, step.operation⟩) =
        operations ∧
      (∀ step ∈ (ofBytes bs start).attemptAll operations, step.Orderly bs) ∧
      ∃ last : Nat, start ≤ last ∧ last ≤ bs.length ∧
        Step.InTurn (ofBytes bs start) ((ofBytes bs start).attemptAll operations)
          (ofBytes bs last) ∧
        ((ofBytes bs start).attemptAll operations).flatMap Step.piece =
          bs.slice start (last - start) := by
  refine ⟨map_operation_attemptAll _ operations, ?_⟩
  obtain ⟨taken, left, hrest, hturn, hpieces, horderly⟩ :=
    attemptAll_behind operations (bs.take start) (bs.drop start)
  rw [List.take_append_drop] at horderly
  rw [behind_take_drop hstart] at hturn hpieces horderly
  have hbs : bs.take start ++ taken ++ left = bs := by
    rw [List.append_assoc, ← hrest, List.take_append_drop]
  have hlength := congrArg List.length hrest
  rw [List.length_drop, List.length_append] at hlength
  have hlast : behind (bs.take start ++ taken) left =
      ofBytes bs ((start + taken.length : Nat)) := by
    rw [behind, hbs, List.length_append, List.length_take, Nat.min_eq_left hstart]
  refine ⟨horderly, start + taken.length, Nat.le_add_right _ _, by omega, hlast ▸ hturn, ?_⟩
  rw [hpieces, Nat.add_sub_cancel_left, Bytes.slice, hrest, List.take_left]

/-- A name is read, too much is passed over, and a number is read: the failure in the middle leaves
no gap. -/
theorem attemptAll_takes_in_turn_of_longSkip :
    let bs : Bytes := [0xFF, 0x61, 0x62, 0x00, 0x05, 0x00]
    let operations : List (Σ α, Operation α) :=
      [⟨_, .name 3⟩, ⟨_, .skip 9⟩, ⟨_, .record Layout.uint16⟩]
    1 ≤ bs.length ∧
      (∀ step ∈ (ofBytes bs (1 : Nat)).attemptAll operations, step.Orderly bs) ∧
      ((ofBytes bs (1 : Nat)).attemptAll operations).flatMap Step.piece = bs.slice 1 5 := by
  intro bs operations
  have hstart : 1 ≤ bs.length := by decide
  exact ⟨hstart, (attemptAll_takes_in_turn bs 1 hstart operations).2.1, rfl⟩

end ArchiveExport.Reader
