import ArchiveExport.Proofs.Data.Counting
import ArchiveExport.Proofs.Resource.Documents
import Mathlib

/-!
# What an altitude map is summed up to

Octets are an altitude map when they begin with its signature and hold a header with two sides and
all cells of the grid. Each terrain is then counted under a name of its own, and nothing behind the
last cell is looked at.
-/

namespace ArchiveExport.AltitudeMap

variable {bs front tail : Bytes} {m : AltitudeMap} {width height count : Nat} {a b n : Int}

/-! ### Names of terrains -/

/-- The names of the first terrains are told apart, and none of them begins like a number's name. -/
theorem terrainName_small : ∀ a b : Fin 7,
    (terrainName (a : Nat) = terrainName (b : Nat) → a = b) ∧
      (terrainName (a : Nat)).toList.head? ≠ some 't' := by
  decide

theorem terrainName_of_not_small (h : ¬ (0 ≤ n ∧ n < 7)) :
    terrainName n = "type_" ++ n.repr := by
  unfold terrainName
  split <;> first | omega | rfl

theorem head?_terrainName_of_not_small (h : ¬ (0 ≤ n ∧ n < 7)) :
    (terrainName n).toList.head? = some 't' := by
  rw [terrainName_of_not_small h, String.toList_append]
  rfl

/-- Different terrains have different names. -/
theorem eq_of_terrainName_eq (h : terrainName a = terrainName b) : a = b := by
  have hsmall {n : Int} (hn : 0 ≤ n ∧ n < 7) : ∃ k : Fin 7, n = (k : Nat) :=
    ⟨⟨n.toNat, by omega⟩, (Int.toNat_of_nonneg hn.1).symm⟩
  by_cases ha : 0 ≤ a ∧ a < 7
  · obtain ⟨k, rfl⟩ := hsmall ha
    by_cases hb : 0 ≤ b ∧ b < 7
    · obtain ⟨l, rfl⟩ := hsmall hb
      rw [(terrainName_small k l).1 h]
    · have hhead := head?_terrainName_of_not_small hb
      rw [← h] at hhead
      exact absurd hhead (terrainName_small k k).2
  · by_cases hb : 0 ≤ b ∧ b < 7
    · obtain ⟨l, rfl⟩ := hsmall hb
      have hhead := head?_terrainName_of_not_small ha
      rw [h] at hhead
      exact absurd hhead (terrainName_small l l).2
    · rw [terrainName_of_not_small ha, terrainName_of_not_small hb, String.append_right_inj] at h
      exact Int.repr_inj.mp h

/-! ### Cells -/

/-- The terrain of the cell at an index. -/
def terrainAt (bs : Bytes) (index : Nat) : Int32 :=
  Layout.int32.decode (bs.slice (headerSize + cellSize * index + 16) 4)

/-- The number of octets of an altitude map with two sides. -/
def octets (width height : Nat) : Nat :=
  headerSize + width * height * cellSize

/-- The octets of an altitude map: signature, header, and the cells of a grid of two sides. -/
structure Holds (bs : Bytes) (width height : Nat) : Prop where
  signature : bs.take 4 = [0x47, 0x52, 0x41, 0x54]
  header : headerSize ≤ bs.length
  width_eq : (Layout.int32.decode (bs.slice 6 4)).toInt = width
  height_eq : (Layout.int32.decode (bs.slice 10 4)).toInt = height
  cells : octets width height ≤ bs.length

theorem map_terrain_readCells (count : Nat) (bs : Bytes) (done : List Cell) :
    (readCells count bs done).map Cell.terrain =
      done.reverse.map Cell.terrain ++ (List.range count).map fun index =>
        Layout.int32.decode (bs.slice (cellSize * index + 16) 4) := by
  induction count generalizing bs done with
  | zero => simp [readCells]
  | succ count ih =>
      have hfirst : (cellLayout.decode (bs.take cellSize)).2 =
          Layout.int32.decode (bs.slice (cellSize * 0 + 16) 4) := by
        have hfield : (bs.take cellSize).drop 16 = bs.slice (cellSize * 0 + 16) 4 := by
          rw [Bytes.slice, List.drop_take]
          rfl
        exact congrArg Layout.int32.decode hfield
      have hrest (index : Nat) : Bytes.slice (bs.drop cellSize) (cellSize * index + 16) 4 =
          bs.slice (cellSize * (index + 1) + 16) 4 := by
        rw [Bytes.slice, Bytes.slice, List.drop_drop, Nat.mul_add_one, Nat.add_right_comm,
          Nat.add_comm cellSize]
      rw [readCells, ih, List.range_succ_eq_map, List.map_cons, List.map_map, List.reverse_cons,
        List.map_append, List.map_singleton, List.append_assoc, List.singleton_append, hfirst]
      simp only [hrest, Function.comp_def, Nat.succ_eq_add_one]

/-- Of the octets behind the cells nothing is read. -/
theorem readCells_append (h : cellSize * count ≤ front.length) (tail : Bytes) (done : List Cell) :
    readCells count (front ++ tail) done = readCells count front done := by
  induction count generalizing front done with
  | zero => rfl
  | succ count ih =>
      rw [Nat.mul_add_one] at h
      have hfirst : cellSize ≤ front.length := by omega
      have hrest : cellSize * count ≤ (front.drop cellSize).length := by
        rw [List.length_drop]
        omega
      rw [readCells, readCells, List.take_append_of_le_length hfirst,
        List.drop_append_of_le_length hfirst]
      rcases cellLayout.decode (front.take cellSize) with ⟨⟨a, b, c, d⟩, terrain⟩
      exact ih hrest _

theorem terrain_foldl_addCell (m : AltitudeMap) (cells : List Cell) :
    (cells.foldl addCell m).terrain =
      (cells.map fun cell => terrainName cell.terrain.toInt).foldl OrderedMap.countKey
        m.terrain := by
  induction cells generalizing m with
  | nil => rfl
  | cons cell cells ih => exact ih (m.addCell cell)

/-! ### Decoding -/

/-- The summary of a grid of two sides. -/
def summary (bs : Bytes) (width height : Nat) : AltitudeMap :=
  (readCells (width * height) (bs.drop headerSize) []).foldl addCell
    ⟨⟨Bytes.toNat (bs.slice 4 1), Bytes.toNat (bs.slice 5 1)⟩, width, height,
      if width * height = 0 then .zero false else .infinity false,
      if width * height = 0 then .zero false else .infinity true, .empty⟩

theorem decode_of_holds (h : Holds bs width height) :
    decode bs = .ok (summary bs width height) := by
  have hsignature : ¬ (bs.length < headerSize ∨ bs.take 4 ≠ [0x47, 0x52, 0x41, 0x54]) :=
    not_or.mpr ⟨Nat.not_lt.mpr h.header, not_not.mpr h.signature⟩
  have hsides : ¬ ((width : Int) < 0 ∨ (height : Int) < 0) := by omega
  have hcells : ¬ bs.length < headerSize + width * height * cellSize := Nat.not_lt.mpr h.cells
  simp only [decode, if_neg hsignature, h.width_eq, h.height_eq, if_neg hsides, Int.toNat_natCast,
    if_neg hcells]
  by_cases hcount : width * height = 0
  · simp only [summary, hcount, if_pos]
    rfl
  · simp only [summary, if_neg hcount]
    rfl

theorem holds_of_decode (h : decode bs = .ok m) : ∃ width height, Holds bs width height := by
  unfold decode at h
  simp only [bind, Except.bind, pure, Except.pure, throw, throwThe, MonadExceptOf.throw] at h
  split_ifs at h with hsignature hsides hcells
  all_goals
    rw [not_or, Nat.not_lt, not_not] at hsignature
    rw [not_or, Int.not_lt, Int.not_lt] at hsides
    exact ⟨_, _, hsignature.2, hsignature.1, (Int.toNat_of_nonneg hsides.1).symm,
      (Int.toNat_of_nonneg hsides.2).symm, Nat.not_lt.mp hcells⟩

theorem sides_summary (bs : Bytes) (width height : Nat) :
    (summary bs width height).width = width ∧ (summary bs width height).height = height :=
  sides_foldl_addCell _

theorem terrain_summary (bs : Bytes) (width height : Nat) :
    (summary bs width height).terrain = OrderedMap.countOf
      ((List.range (width * height)).map fun index => terrainName (terrainAt bs index).toInt) := by
  have hplace (index : Nat) : Layout.int32.decode
      (Bytes.slice (bs.drop headerSize) (cellSize * index + 16) 4) = terrainAt bs index := by
    rw [terrainAt, Bytes.slice, List.drop_drop, Nat.add_assoc, Bytes.slice]
  have hcells := map_terrain_readCells (width * height) (bs.drop headerSize) []
  simp only [hplace, List.reverse_nil, List.map_nil, List.nil_append] at hcells
  rw [summary, terrain_foldl_addCell]
  change List.foldl OrderedMap.countKey .empty
    (List.map ((terrainName ·.toInt) ∘ Cell.terrain) _) = _
  rw [← List.map_map, hcells, List.map_map]
  rfl

/-! ### What is behind the cells -/

theorem slice_take_append {size offset field : Nat} (h : offset + field ≤ size)
    (hsize : size ≤ bs.length) (tail : Bytes) :
    Bytes.slice (bs.take size ++ tail) offset field = bs.slice offset field := by
  have hlength : (bs.take size).length = size := by rw [List.length_take, Nat.min_eq_left hsize]
  have hfield : field ≤ ((bs.take size).drop offset).length := by
    rw [List.length_drop, hlength]
    omega
  rw [Bytes.slice, List.drop_append_of_le_length (by omega),
    List.take_append_of_le_length hfield, List.drop_take, List.take_take,
    Nat.min_eq_left (by omega), Bytes.slice]

theorem Holds.take_append (h : Holds bs width height) (tail : Bytes) :
    Holds (bs.take (octets width height) ++ tail) width height := by
  have hsize : headerSize ≤ octets width height := Nat.le_add_right _ _
  have hheader : headerSize = 14 := rfl
  have hlength : octets width height ≤ (bs.take (octets width height) ++ tail).length := by
    rw [List.length_append, List.length_take, Nat.min_eq_left h.cells]
    exact Nat.le_add_right _ _
  have hsignature : Bytes.slice (bs.take (octets width height) ++ tail) 0 4 = bs.slice 0 4 :=
    slice_take_append (by omega) h.cells tail
  refine ⟨?_, hsize.trans hlength, ?_, ?_, hlength⟩
  · rw [Bytes.slice, Bytes.slice, List.drop_zero, List.drop_zero] at hsignature
    rw [hsignature, h.signature]
  · rw [slice_take_append (by omega) h.cells, h.width_eq]
  · rw [slice_take_append (by omega) h.cells, h.height_eq]

theorem summary_take_append (h : octets width height ≤ bs.length) (tail : Bytes) :
    summary (bs.take (octets width height) ++ tail) width height = summary bs width height := by
  have hsize : headerSize ≤ octets width height := Nat.le_add_right _ _
  have hheader : headerSize = 14 := rfl
  have hlength : (bs.take (octets width height)).length = octets width height := by
    rw [List.length_take, Nat.min_eq_left h]
  have hcells : cellSize * (width * height) ≤
      ((bs.take (octets width height)).drop headerSize).length := by
    rw [List.length_drop, hlength, octets, Nat.add_sub_cancel_left, Nat.mul_comm]
  have hread (tail : Bytes) : readCells (width * height)
      ((bs.take (octets width height) ++ tail).drop headerSize) [] =
        readCells (width * height) ((bs.take (octets width height)).drop headerSize) [] := by
    rw [List.drop_append_of_le_length (by omega), readCells_append hcells]
  have hall := hread (bs.drop (octets width height))
  rw [List.take_append_drop] at hall
  rw [summary, summary, hread, hall, slice_take_append (by omega) h,
    slice_take_append (by omega) h]

/-! ### The histogram -/

/-- What a summary says about the octets it was made from. -/
structure Summarizes (m : AltitudeMap) (bs : Bytes) : Prop where
  holds : Holds bs m.width m.height
  count : ∀ terrain : Int32, m.terrain.find? (terrainName terrain.toInt) =
    if ∃ index < m.width * m.height, terrainAt bs index = terrain then
      some ((List.range (m.width * m.height)).countP fun index => terrainAt bs index = terrain)
    else none
  named : ∀ name ∈ m.terrain.keys, ∃ terrain : Int32, name = terrainName terrain.toInt
  total : m.terrain.values.sum = m.width * m.height
  rest : ∀ tail, decode (bs.take (octets m.width m.height) ++ tail) = .ok m

theorem summarizes_summary (h : Holds bs width height) :
    Summarizes (summary bs width height) bs := by
  obtain ⟨hwidth, hheight⟩ := sides_summary bs width height
  have hname (index : Nat) (terrain : Int32) :
      terrainName (terrainAt bs index).toInt = terrainName terrain.toInt ↔
        terrainAt bs index = terrain :=
    ⟨fun heq => Int32.toInt_inj.mp (eq_of_terrainName_eq heq), fun heq => by rw [heq]⟩
  refine ⟨?_, fun terrain => ?_, fun name hmem => ?_, ?_, fun tail => ?_⟩
  · rw [hwidth, hheight]
    exact h
  · rw [hwidth, hheight, terrain_summary, OrderedMap.find?_countOf]
    have hcount : (fun name => name == terrainName terrain.toInt) ∘
        (fun index => terrainName (terrainAt bs index).toInt) =
          fun index => decide (terrainAt bs index = terrain) := by
      funext index
      rw [Function.comp_apply, beq_eq_decide, decide_eq_decide, hname]
    simp only [List.mem_map, List.mem_range, hname, List.count, List.countP_map, hcount]
  · rw [terrain_summary, OrderedMap.mem_keys_countOf_iff] at hmem
    obtain ⟨index, -, rfl⟩ := List.mem_map.mp hmem
    exact ⟨_, rfl⟩
  · rw [hwidth, hheight, terrain_summary, OrderedMap.sum_values_countOf, List.length_map,
      List.length_range]
  · rw [hwidth, hheight, decode_of_holds (h.take_append tail), summary_take_append h.cells]

/-- Octets are decoded exactly if they hold an altitude map. Its histogram has each terrain of the
grid under its name, with the number of its cells, and no other names; no two terrains share a name,
the numbers sum up to the size of the grid, and whatever stands behind the last cell the result is
the same. -/
theorem decode_summarizes (bs : Bytes) :
    ((∃ m, decode bs = .ok m) ↔ ∃ width height, Holds bs width height) ∧
      (∀ m, decode bs = .ok m → Summarizes m bs) ∧
      ∀ a b : Int32, terrainName a.toInt = terrainName b.toInt → a = b := by
  refine ⟨⟨fun ⟨m, hm⟩ => holds_of_decode hm, fun ⟨width, height, h⟩ => ⟨_, decode_of_holds h⟩⟩,
    fun m hm => ?_, fun a b h => Int32.toInt_inj.mp (eq_of_terrainName_eq h)⟩
  obtain ⟨width, height, h⟩ := holds_of_decode hm
  rw [decode_of_holds h, Except.ok.injEq] at hm
  exact hm ▸ summarizes_summary h

/-- A map of two cells, one of a terrain without a name of its own, and an octet behind them. -/
def twoCells : Bytes :=
  [0x47, 0x52, 0x41, 0x54, 1, 2, 2, 0, 0, 0, 1, 0, 0, 0] ++
    List.replicate 16 0 ++ [1, 0, 0, 0] ++ List.replicate 16 0 ++ [9, 0, 0, 0] ++ [0xFF]

theorem decode_summarizes_of_twoCells :
    ∃ m, decode twoCells = .ok m ∧ m.Summarizes twoCells ∧
      m.terrain.entries = [("blocked", 1), ("type_9", 1)] := by
  have hholds : Holds twoCells 2 1 := ⟨rfl, by decide, by decide, by decide, by decide⟩
  have hdecode := decode_of_holds hholds
  refine ⟨_, hdecode, (decode_summarizes twoCells).2.1 _ hdecode, ?_⟩
  rw [terrain_summary]
  decide

end ArchiveExport.AltitudeMap
