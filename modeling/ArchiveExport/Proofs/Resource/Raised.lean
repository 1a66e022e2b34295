import ArchiveExport.Proofs.Resource.World
import ArchiveExport.Resource.Format

/-!
# Accesses that may raise

The decoders look first whether there is enough to read. Here each access raises by itself where it
passes the end, where a count is bad or where octets cannot be taken apart, and only what a decoder
handles becomes a fault of its format. Written in this way the decoders give what they give, so
that nothing is raised but the faults of the formats.
-/

namespace ArchiveExport

/-- What may be raised while octets are decoded. -/
inductive Raised (φ : Type) where
  /-- The octets are no resource of the format. -/
  | fault (fault : φ)
  /-- Reading on fails: too little is left, or a count is out of its bounds. -/
  | reading (fault : Reader.Fault)
  /-- An octet behind the end is asked for. -/
  | index (i size : Nat)
  /-- A record passes the end. -/
  | record (offset width size : Nat)
  /-- There are not as many octets as are taken apart. -/
  | shape (size expected : Nat)

namespace Raised

variable {φ α : Type} {bs : Bytes} {offset stop size : Nat}

/-- The octet at a place. -/
def octetAt (bs : Bytes) (i : Nat) : Except (Raised φ) UInt8 :=
  match bs[i]? with
  | some b => .ok b
  | none => .error (.index i bs.length)

/-- The record at a place. -/
def recordAt (layout : Layout α) (bs : Bytes) (offset : Nat) : Except (Raised φ) α :=
  if offset + layout.width ≤ bs.length then .ok (layout.decode (bs.slice offset layout.width))
  else .error (.record offset layout.width bs.length)

/-- The records that octets are made of. -/
def recordsOf (layout : Layout α) (bs : Bytes) : Except (Raised φ) (List α) :=
  if bs.length % layout.width = 0 then
    .ok <| (List.range (bs.length / layout.width)).map fun i =>
      layout.decode (bs.slice (i * layout.width) layout.width)
  else
    .error (.shape bs.length layout.width)

/-- The colour that four octets are. -/
def colorOf : Bytes → Except (Raised φ) Color
  | [red, green, blue, alpha] => .ok ⟨red, green, blue, alpha⟩
  | bs => .error (.shape bs.length 4)

/-- Read on, raising what reading raises. -/
def from? (read : Reading α) (r : Reader) : Except (Raised φ) (α × Reader) :=
  (read r).mapError .reading

theorem octetAt_of_lt {i : Nat} (h : i < bs.length) :
    octetAt bs i = (.ok bs[i] : Except (Raised φ) UInt8) := by
  rw [octetAt, List.getElem?_eq_getElem h]

theorem recordAt_of_le (layout : Layout α) (h : offset + layout.width ≤ bs.length) :
    recordAt layout bs offset =
      (.ok (layout.decode (bs.slice offset layout.width)) : Except (Raised φ) α) :=
  if_pos h

theorem recordAt_pair {β : Type} (l : Layout α) (m : Layout β)
    (h : offset + (l.width + m.width) ≤ bs.length) :
    recordAt (l.pair m) bs offset = (.ok (l.decode (bs.slice offset l.width),
      m.decode (bs.slice (offset + l.width) m.width)) : Except (Raised φ) (α × β)) := by
  rw [recordAt_of_le (l.pair m) h]
  simp only [Layout.pair, Bytes.slice, List.take_take, List.drop_take, List.drop_drop,
    Nat.min_eq_left (Nat.le_add_right l.width m.width), Nat.add_sub_cancel_left]

theorem exists_of_map_eq_ok {ε β : Type} {x : Except ε α} {f : α → β} {b : β}
    (h : x.map f = .ok b) : ∃ a, x = .ok a ∧ f a = b := by
  cases x with
  | error fault => cases h
  | ok a => exact ⟨a, rfl, Except.ok.inj h⟩

theorem from?_of_ok {read : Reading α} {r : Reader} {result : α × Reader}
    (h : read r = .ok result) : from? read r = (.ok result : Except (Raised φ) _) := by
  rw [from?, h]
  rfl

end Raised

open Raised hiding fault reading index record shape

/-! ### Palettes -/

namespace Palette

/-- The palette in a table, its colours taken apart one by one. -/
def ofTableRaising (table : Bytes) (f : Nat → Color → Color) : Except (Raised Fault) Palette := do
  let colors ← Vector.ofFnM fun i : Fin 256 => do
    return f i.val (← colorOf (table.slice (4 * i.val) 4))
  return ⟨colors⟩

/-- The palette in the first octets of a file. -/
def decodeRaising (bs : Bytes) : Except (Raised Fault) Palette := do
  if bs.length < size then throw (.fault (.tooSmall bs.length))
  ofTableRaising bs meant

theorem colorOf_slice {table : Bytes} {i : Nat} (h : 4 * i + 4 ≤ table.length) :
    colorOf (table.slice (4 * i) 4) = (.ok ⟨table.toArray.getD (4 * i) 0,
      table.toArray.getD (4 * i + 1) 0, table.toArray.getD (4 * i + 2) 0,
      table.toArray.getD (4 * i + 3) 0⟩ : Except (Raised Fault) Color) := by
  have hslice : table.slice (4 * i) 4 =
      [table[4 * i], table[4 * i + 1], table[4 * i + 2], table[4 * i + 3]] := by
    rw [Bytes.slice, List.drop_eq_getElem_cons (by omega), List.drop_eq_getElem_cons (by omega),
      List.drop_eq_getElem_cons (by omega), List.drop_eq_getElem_cons (by omega)]
    rfl
  rw [hslice, colorOf]
  simp [Array.getD, show 4 * i < table.length by omega, show 4 * i + 1 < table.length by omega,
    show 4 * i + 2 < table.length by omega, show 4 * i + 3 < table.length by omega]

theorem ofTableRaising_eq {table : Bytes} (f : Nat → Color → Color) (h : size ≤ table.length) :
    ofTableRaising table f = .ok (ofTable table f) := by
  have hcolors : (fun i : Fin 256 => do return f i.val (← colorOf (table.slice (4 * i.val) 4))) =
      (fun i : Fin 256 => (Pure.pure (f i.val ⟨table.toArray.getD (4 * i.val) 0,
        table.toArray.getD (4 * i.val + 1) 0, table.toArray.getD (4 * i.val + 2) 0,
        table.toArray.getD (4 * i.val + 3) 0⟩) : Except (Raised Fault) Color)) := by
    funext i
    have hi : 4 * i.val + 4 ≤ table.length := by
      have hlt := i.isLt
      unfold size at h
      omega
    rw [colorOf_slice hi]
    rfl
  rw [ofTableRaising, hcolors, Vector.ofFnM_pure]
  rfl

theorem ofTable_take {table : Bytes} (f : Nat → Color → Color) (h : size ≤ table.length) :
    ofTable (table.take size) f = ofTable table f := by
  have hget (k : Nat) (hk : k < size) :
      (table.take size).toArray.getD k 0 = table.toArray.getD k 0 := by
    simp [Array.getD, List.length_take, show k < min size table.length by omega,
      show k < table.length by omega]
  unfold ofTable
  simp only [Palette.mk.injEq]
  congr 1
  funext i
  have hlt := i.isLt
  rw [hget _ (by unfold size; omega), hget _ (by unfold size; omega),
    hget _ (by unfold size; omega), hget _ (by unfold size; omega)]

theorem decodeRaising_eq (bs : Bytes) : decodeRaising bs = (decode bs).mapError .fault := by
  by_cases hsmall : bs.length < size
  · rw [decodeRaising, decode, if_pos hsmall, if_pos hsmall]
    rfl
  · rw [decodeRaising, decode, if_neg hsmall, if_neg hsmall, ofTable_take meant (by omega)]
    exact ofTableRaising_eq meant (by omega)

end Palette

/-! ### Altitude maps -/

namespace AltitudeMap

/-- The cell of a record. -/
def cellOf : (Binary32 × Binary32 × Binary32 × Binary32) × Int32 → Cell
  | ((a, b, c, d), terrain) => ⟨[a, b, c, d], terrain⟩

/-- The summary of the map in a file. -/
def decodeRaising (bs : Bytes) : Except (Raised Fault) AltitudeMap :=
  if bs.length < headerSize ∨ bs.take 4 ≠ [0x47, 0x52, 0x41, 0x54] then
    throw (.fault .signature)
  else do
    let version : Version := ⟨(← octetAt bs 4).toNat, (← octetAt bs 5).toNat⟩
    let sides ← recordAt (Layout.int32.pair Layout.int32) bs 6
    let width := sides.1.toInt
    let height := sides.2.toInt
    let count := width.toNat * height.toNat
    let expected := headerSize + count * cellSize
    if width < 0 ∨ height < 0 then throw (.fault (.dimensions width height))
    else if bs.length < expected then throw (.fault (.truncated bs.length expected))
    else if count = 0 then
      return ⟨version, width.toNat, height.toNat, .zero false, .zero false, .empty⟩
    else do
      let cells ← recordsOf cellLayout (bs.slice headerSize (expected - headerSize))
      return (cells.map cellOf).foldl addCell
        ⟨version, width.toNat, height.toNat, .infinity false, .infinity true, .empty⟩

theorem readCells_eq (count : Nat) (bs : Bytes) (done : List Cell) :
    readCells count bs done = done.reverse ++ (List.range count).map fun i =>
      cellOf (cellLayout.decode (bs.slice (i * cellSize) cellSize)) := by
  induction count generalizing bs done with
  | zero => simp [readCells]
  | succ count ih =>
      have hstep : readCells (count + 1) bs done = readCells count (bs.drop cellSize)
          (cellOf (cellLayout.decode (bs.take cellSize)) :: done) := rfl
      have hshift (i : Nat) : Bytes.slice (bs.drop cellSize) (i * cellSize) cellSize =
          bs.slice ((i + 1) * cellSize) cellSize := by
        rw [Bytes.slice, Bytes.slice, List.drop_drop, Nat.add_one_mul, Nat.add_comm]
      rw [hstep, ih, List.range_succ_eq_map, List.map_cons, List.map_map]
      simp only [hshift, Function.comp_def, List.reverse_cons, List.append_assoc,
        List.singleton_append, Nat.zero_mul, Nat.succ_eq_add_one]
      rfl

/-- As many octets as so many cells have are made of those cells. -/
theorem recordsOf_cells {bs : Bytes} {count : Nat} (h : headerSize + count * cellSize ≤ bs.length) :
    (recordsOf cellLayout (bs.slice headerSize (count * cellSize)) :
      Except (Raised Fault) _).map (·.map cellOf) =
        .ok (readCells count (bs.drop headerSize) []) := by
  have hwidth : cellLayout.width = cellSize := rfl
  have hlength : (bs.slice headerSize (count * cellSize)).length = count * cellSize := by
    rw [Bytes.slice, List.length_take, List.length_drop]
    omega
  rw [recordsOf, hwidth, hlength, if_pos (Nat.mul_mod_left _ _),
    Nat.mul_div_cancel _ (by decide), readCells_eq]
  simp only [Except.map, List.map_map, List.reverse_nil, List.nil_append, Except.ok.injEq]
  refine List.map_congr_left fun i hi => ?_
  have hi : i < count := List.mem_range.mp hi
  have hroom : (i + 1) * cellSize ≤ count * cellSize := Nat.mul_le_mul_right _ hi
  rw [Nat.add_one_mul] at hroom
  rw [Function.comp_apply, Bytes.slice, Bytes.slice, Bytes.slice, List.drop_take, List.take_take,
    Nat.min_eq_left (by omega)]

theorem decodeRaising_eq (bs : Bytes) : decodeRaising bs = (decode bs).mapError .fault := by
  unfold decodeRaising decode
  by_cases hsignature : bs.length < headerSize ∨ bs.take 4 ≠ [0x47, 0x52, 0x41, 0x54]
  · simp only [if_pos hsignature]
    rfl
  have hlong : 14 ≤ bs.length := by
    unfold headerSize at hsignature
    omega
  have hversion (i : Nat) (hi : i < bs.length) : Bytes.toNat (bs.slice i 1) = bs[i].toNat := by
    rw [Bytes.slice, List.drop_eq_getElem_cons hi, List.take_succ_cons, List.take_zero,
      Bytes.toNat, Bytes.toNat, Nat.mul_zero, Nat.add_zero]
  have hsides : recordAt (Layout.int32.pair Layout.int32) bs 6 =
      (.ok (Layout.int32.decode (bs.slice 6 4), Layout.int32.decode (bs.slice 10 4)) :
        Except (Raised Fault) _) := recordAt_pair _ _ hlong
  simp only [if_neg hsignature]
  rw [octetAt_of_lt (by omega), octetAt_of_lt (by omega), hsides, hversion 4 (by omega),
    hversion 5 (by omega)]
  simp only [bind, Except.bind]
  generalize (Layout.int32.decode (bs.slice 6 4)).toInt = width
  generalize (Layout.int32.decode (bs.slice 10 4)).toInt = height
  by_cases hnegative : width < 0 ∨ height < 0
  · simp only [if_pos hnegative]
    rfl
  by_cases hcut : bs.length < headerSize + width.toNat * height.toNat * cellSize
  · simp only [if_neg hnegative, if_pos hcut]
    rfl
  by_cases hzero : width.toNat * height.toNat = 0
  · simp only [if_neg hnegative, if_neg hcut, if_pos hzero]
    rfl
  simp only [if_neg hnegative, if_neg hcut, if_neg hzero, Nat.add_sub_cancel_left]
  obtain ⟨records, hread, hcells⟩ :=
    exists_of_map_eq_ok (recordsOf_cells (Nat.le_of_not_lt hcut))
  rw [hread, ← hcells]
  rfl

end AltitudeMap

/-! ### World resources -/

namespace Reading

variable {α β : Type} {read : Reading α} {next : α → Reading β}

/-- A reader that refuses no count. -/
def NeverCounts (read : Reading α) : Prop :=
  ∀ r n, read r ≠ .error (.count n)

theorem NeverCounts.pure (a : α) : NeverCounts (pure a) :=
  fun _ _ h => nomatch h

theorem NeverCounts.bind (hfirst : NeverCounts read) (hnext : ∀ a, NeverCounts (next a)) :
    NeverCounts (read >>= next) := by
  intro r n h
  cases hread : read r with
  | error fault =>
      rw [bind_of_error hread] at h
      cases h
      exact hfirst r n hread
  | ok result =>
      obtain ⟨a, left⟩ := result
      rw [bind_of_ok hread] at h
      exact hnext a left n h

theorem NeverCounts.record (layout : Layout α) : NeverCounts (record layout) := by
  refine NeverCounts.bind (fun r n h => ?_) fun _ => .pure _
  rw [block] at h
  split_ifs at h <;> cases h

theorem NeverCounts.name (length : Int) : NeverCounts (name length) := by
  intro r n h
  rw [Reading.name] at h
  split at h <;> cases h

theorem NeverCounts.ifStored (c : Bool) (h : NeverCounts read) (d : α) :
    NeverCounts (ifStored c read d) := by
  cases c with
  | false => exact .pure d
  | true => exact h

end Reading

namespace World

open Reading

/-- The world resource in a file. Of what reading raises a refused count is not handled. -/
def decodeRaising (bs : Bytes) : Except (Raised Fault) World :=
  if bs.length < 6 ∨ bs.take 4 ≠ [0x47, 0x52, 0x53, 0x57] then throw (.fault .signature)
  else do
    let version : Version := ⟨(← octetAt bs 4).toNat, (← octetAt bs 5).toNat⟩
    match readFields version (Reader.ofBytes bs 6) with
    | .ok (world, _) => return world
    | .error (.count n) => throw (.reading (.count n))
    | .error fault => throw (.fault (.truncated fault))

theorem neverCounts_readFields (version : Version) : NeverCounts (readFields version) := by
  have hint : NeverCounts readInt := (NeverCounts.record _).bind fun _ => .pure _
  have hreal : NeverCounts readReal := (NeverCounts.record _).bind fun _ => .pure _
  have hreals : NeverCounts readReals := (NeverCounts.record _).bind fun _ => .pure _
  have hbuild : NeverCounts (readBuildNumber version) := by
    unfold readBuildNumber
    split_ifs
    · exact (NeverCounts.record _).bind fun _ => (NeverCounts.record _).bind fun _ => .pure _
    · exact (NeverCounts.record _).bind fun _ => .pure _
    · exact .pure 0
  have hwater : NeverCounts (Water.read version) :=
    hreal.bind fun _ =>
      (NeverCounts.ifStored _ ((NeverCounts.record _).bind fun _ => .pure _) _).bind fun _ =>
        (NeverCounts.ifStored _ hint _).bind fun _ => .pure _
  have hlight : NeverCounts (Light.read version) :=
    (NeverCounts.record _).bind fun _ => hreals.bind fun _ => hreals.bind fun _ =>
      (NeverCounts.ifStored _ hreal _).bind fun _ => .pure _
  rw [readFields_eq, readWater_eq, readLight_eq, readBounds_eq]
  refine hbuild.bind fun _ => (NeverCounts.name _).bind fun _ => ?_
  refine (NeverCounts.name _).bind fun _ => ?_
  refine (NeverCounts.ifStored _ (NeverCounts.name _) _).bind fun _ => ?_
  refine (NeverCounts.name _).bind fun _ => ?_
  refine (NeverCounts.ifStored _ (hwater.bind fun _ => .pure _) _).bind fun _ => ?_
  refine (NeverCounts.ifStored _ hlight _).bind fun _ => ?_
  refine (NeverCounts.ifStored _ ((NeverCounts.record _).bind fun _ => .pure _) _).bind fun _ => ?_
  exact hint.bind fun _ => .pure _

theorem decode_eq_signature (h : bs.length < 6 ∨ bs.take 4 ≠ [0x47, 0x52, 0x53, 0x57]) :
    decode bs = .error .signature := by
  unfold decode
  split
  next =>
    simp at h
    omega
  next => rfl

theorem decodeRaising_eq (bs : Bytes) : decodeRaising bs = (decode bs).mapError .fault := by
  unfold decodeRaising
  by_cases hsignature : bs.length < 6 ∨ bs.take 4 ≠ [0x47, 0x52, 0x53, 0x57]
  · rw [if_pos hsignature, decode_eq_signature hsignature]
    rfl
  · obtain ⟨major, minor, rest, rfl⟩ : ∃ major minor rest,
        bs = 0x47 :: 0x52 :: 0x53 :: 0x57 :: major :: minor :: rest := by
      match bs, hsignature with
      | s0 :: s1 :: s2 :: s3 :: major :: minor :: rest, h =>
        simp only [List.take_succ_cons, List.take_zero, not_or, not_not, List.cons.injEq,
          and_true] at h
        obtain ⟨-, rfl, rfl, rfl, rfl⟩ := h
        exact ⟨major, minor, rest, rfl⟩
      | [], h | [_], h | [_, _], h | [_, _, _], h | [_, _, _, _], h | [_, _, _, _, _], h =>
        simp at h
    have hmajor : (octetAt (0x47 :: 0x52 :: 0x53 :: 0x57 :: major :: minor :: rest) 4 :
        Except (Raised Fault) UInt8) = .ok major := rfl
    have hminor : (octetAt (0x47 :: 0x52 :: 0x53 :: 0x57 :: major :: minor :: rest) 5 :
        Except (Raised Fault) UInt8) = .ok minor := rfl
    have hreader : Reader.ofBytes (0x47 :: 0x52 :: 0x53 :: 0x57 :: major :: minor :: rest) 6 =
        .behind [0x47, 0x52, 0x53, 0x57, major, minor] rest := rfl
    rw [if_neg hsignature, decode_signed, hmajor, hminor, hreader]
    simp only [bind, Except.bind]
    cases hread : readFields ⟨major.toNat, minor.toNat⟩
        (.behind [0x47, 0x52, 0x53, 0x57, major, minor] rest) with
    | ok result => rfl
    | error fault =>
        cases fault with
        | count n => exact absurd hread (neverCounts_readFields _ _ n)
        | _ => rfl

end World

end ArchiveExport
