import ArchiveExport.Proofs.Archive.Layout
import ArchiveExport.Proofs.Archive.Stored
import ArchiveExport.Proofs.Resource.Sequence

/-!
# The rows of a file table

A table is scanned row by row up to a tail that holds no further row. So the rows that are written
in a table are the rows that are found, and every table is some rows and such a tail. The entries
of an opened file follow the rows in order, and a later row takes the place of an earlier one with
the same key.
-/

namespace ArchiveExport

namespace Grf

variable {row : Row} {bs rest table tail : Bytes}

namespace Row

/-- The octets of a row: its name up to a NUL and its fields. The first of them, the size before
alignment, is not read. -/
def Written (row : Row) (bs : Bytes) : Prop :=
  row.Fits ∧ ∃ stored : Bytes, stored.length = 4 ∧
    bs = row.name ++ 0 :: (stored ++ (Bytes.ofNat 4 row.alignedSize ++
      (Bytes.ofNat 4 row.realSize ++ ([row.flags] ++ Bytes.ofNat 4 row.offset))))

theorem written_encode (h : row.Fits) : row.Written row.encode :=
  ⟨h, Bytes.ofNat 4 row.alignedSize, Bytes.length_ofNat 4 _, rfl⟩

theorem written_flatMap_encode {written : List Row} (h : ∀ row ∈ written, row.Fits) :
    WrittenInTurn Written written (written.flatMap encode) := by
  induction written with
  | nil => exact .nil
  | cons row written ih =>
      rw [List.forall_mem_cons] at h
      exact .cons (written_encode h.1) (ih h.2)

/-- The fields of a row are read back. -/
theorem decode_append (h : row.Fits) {stored : Bytes} (hstored : stored.length = 4) :
    decode row.name (stored ++ (Bytes.ofNat 4 row.alignedSize ++ (Bytes.ofNat 4 row.realSize ++
      ([row.flags] ++ Bytes.ofNat 4 row.offset)))) = row := by
  generalize hinfo : stored ++ (Bytes.ofNat 4 row.alignedSize ++ (Bytes.ofNat 4 row.realSize ++
    ([row.flags] ++ Bytes.ofNat 4 row.offset))) = info
  have haligned : info.slice 4 4 = Bytes.ofNat 4 row.alignedSize := by
    rw [← hinfo]
    exact Bytes.slice_append _ hstored (by simp)
  have hreal : info.slice 8 4 = Bytes.ofNat 4 row.realSize := by
    rw [← hinfo, ← List.append_assoc]
    exact Bytes.slice_append _ (by simp [hstored]) (by simp)
  have hflags : info.slice 12 1 = [row.flags] := by
    rw [← hinfo, ← List.append_assoc, ← List.append_assoc]
    exact Bytes.slice_append _ (by simp [hstored]) (by simp)
  have hoffset : info.slice 13 4 = Bytes.ofNat 4 row.offset := by
    rw [← hinfo, ← List.append_assoc, ← List.append_assoc, ← List.append_assoc,
      ← List.append_nil (Bytes.ofNat 4 row.offset)]
    exact Bytes.slice_append _ (by simp [hstored]) (by simp)
  rw [decode, haligned, hreal, hflags, hoffset, Bytes.toNat_ofNat h.alignedSize,
    Bytes.toNat_ofNat h.realSize, Bytes.toNat_ofNat h.offset, List.headD_cons]

/-- Any octets behind a name are the fields of a row. -/
theorem written_decode {name info : Bytes} (hname : 0 ∉ name) (hinfo : info.length = size) :
    (decode name info).Written (name ++ 0 :: info) := by
  obtain ⟨stored, aligned, real, flags, offset, hstored, haligned, hreal, hoffset, hsplit⟩ :
      ∃ (stored aligned real : Bytes) (flags : UInt8) (offset : Bytes), stored.length = 4 ∧
        aligned.length = 4 ∧ real.length = 4 ∧ offset.length = 4 ∧
        info = stored ++ (aligned ++ (real ++ ([flags] ++ offset))) := by
    obtain ⟨flags, hflags⟩ : ∃ flags, (info.drop 12).take 1 = [flags] := by
      rw [← List.length_eq_one_iff, List.length_take, List.length_drop, hinfo]
      rfl
    refine ⟨info.take 4, (info.drop 4).take 4, (info.drop 8).take 4, flags, info.drop 13, ?_⟩
    refine ⟨by simp [hinfo, size], by simp [hinfo, size], by simp [hinfo, size],
      by simp [hinfo, size], ?_⟩
    have hcut : ∀ n k, (info.drop n).take k ++ info.drop (n + k) = info.drop n := by
      intro n k
      rw [← List.drop_drop, List.take_append_drop]
    rw [← hflags, hcut 12 1, hcut 8 4, hcut 4 4, List.take_append_drop]
  let row : Row := ⟨name, Bytes.toNat aligned, Bytes.toNat real, flags, Bytes.toNat offset⟩
  have hnumber : ∀ {field : Bytes}, field.length = 4 →
      Bytes.toNat field < Nat.pow 256 4 ∧ Bytes.ofNat 4 (Bytes.toNat field) = field := by
    intro field hfield
    exact ⟨hfield ▸ Bytes.toNat_lt field, hfield ▸ Bytes.ofNat_toNat field⟩
  have hfits : row.Fits :=
    ⟨hname, (hnumber haligned).1, (hnumber hreal).1, (hnumber hoffset).1⟩
  have hwritten : info = stored ++ (Bytes.ofNat 4 row.alignedSize ++
      (Bytes.ofNat 4 row.realSize ++ ([row.flags] ++ Bytes.ofNat 4 row.offset))) := by
    simp only [row, (hnumber haligned).2, (hnumber hreal).2, (hnumber hoffset).2, hsplit]
  have hrow : decode name info = row := by
    rw [hwritten]
    exact decode_append hfits hstored
  rw [hrow]
  exact ⟨hfits, stored, hstored, by rw [← hwritten]⟩

end Row

/-! ### Scanning -/

/-- Octets that hold no whole row: no name up to its NUL with the fields of a row behind it. -/
def HoldsNoRow (tail : Bytes) : Prop :=
  ∀ name info rest : Bytes, 0 ∉ name → info.length = Row.size → tail ≠ name ++ 0 :: (info ++ rest)

/-- A name is what stands in front of the first NUL. -/
theorem takeWhile_append_nul {name : Bytes} (hname : 0 ∉ name) (behind : Bytes) :
    (name ++ 0 :: behind).takeWhile (· ≠ 0) = name := by
  have hall : ∀ b ∈ name, decide (b ≠ 0) = true := by
    intro b hb
    exact decide_eq_true fun hzero => hname (hzero ▸ hb)
  rw [List.takeWhile_append_of_pos hall]
  simp

theorem scan_append {name info : Bytes} (hname : 0 ∉ name) (hinfo : info.length = Row.size)
    (rest : Bytes) : scan (name ++ 0 :: (info ++ rest)) = .row (.decode name info) rest := by
  have htake : (info ++ rest).take Row.size = info := by rw [← hinfo, List.take_left]
  have hdrop : (info ++ rest).drop Row.size = rest := by rw [← hinfo, List.drop_left]
  rw [scan]
  simp only [takeWhile_append_nul hname, List.drop_left, htake, hdrop]
  rw [if_neg (by omega)]

/-- A row at the front of a table is found. -/
theorem scan_written (h : row.Written bs) (rest : Bytes) : scan (bs ++ rest) = .row row rest := by
  obtain ⟨hfits, stored, hstored, rfl⟩ := h
  rw [List.append_assoc, List.cons_append, scan_append hfits.name (by simp [hstored, Row.size]),
    Row.decode_append hfits hstored]

/-- What is found as a row is written there as one. -/
theorem exists_written_of_scan (h : scan table = .row row rest) :
    ∃ first, row.Written first ∧ table = first ++ rest := by
  have hname : (0 : UInt8) ∉ table.takeWhile (· ≠ 0) := by
    intro hzero
    have hall := List.all_takeWhile (p := fun b : UInt8 => decide (b ≠ 0)) (l := table)
    simpa using List.all_eq_true.mp hall 0 hzero
  have hsplit : table.takeWhile (· ≠ 0) ++ table.dropWhile (· ≠ 0) = table :=
    List.takeWhile_append_dropWhile
  generalize htaken : table.takeWhile (· ≠ 0) = name at *
  have hbehind : table.drop name.length = table.dropWhile (· ≠ 0) := by
    conv_lhs => rw [← hsplit, List.drop_left]
  simp only [scan, htaken, hbehind] at h
  split at h
  next => simp at h
  next b behind hdropped =>
    split at h
    next => simp at h
    next hlong =>
      simp only [Scan.row.injEq] at h
      obtain ⟨rfl, rfl⟩ := h
      have hnul : b = 0 := by
        have hstop := List.head?_dropWhile_not (fun b : UInt8 => decide (b ≠ 0)) table
        rw [hdropped] at hstop
        simpa using hstop
      have hinfo : (behind.take Row.size).length = Row.size := by
        rw [List.length_take] at hlong ⊢
        omega
      refine ⟨name ++ 0 :: behind.take Row.size, Row.written_decode hname hinfo, ?_⟩
      rw [List.append_assoc, List.cons_append, List.take_append_drop, ← hsplit, hdropped, hnul]

/-- Where no row is found, there is none. -/
theorem holdsNoRow_iff : HoldsNoRow tail ↔ ∀ row rest, scan tail ≠ .row row rest := by
  constructor
  · intro h row rest hscan
    obtain ⟨first, ⟨hfits, stored, hstored, rfl⟩, htail⟩ := exists_written_of_scan hscan
    rw [List.append_assoc, List.cons_append] at htail
    exact h _ _ _ hfits.name (by simp [hstored, Row.size]) htail
  · rintro h name info rest hname hinfo rfl
    exact h _ _ (scan_append hname hinfo rest)

theorem rows_of_holdsNoRow (h : HoldsNoRow tail) : (rows tail).1 = [] := by
  rw [rows]
  split
  next => rfl
  next => rfl
  next row rest hscan => exact absurd hscan (holdsNoRow_iff.mp h row rest)

theorem rows_of_scan (h : scan table = .row row rest) :
    rows table = (row :: (rows rest).1, (rows rest).2) := by
  rw [rows]
  split
  next hstop => simp [h] at hstop
  next hcut => simp [h] at hcut
  next first more hrow =>
    rw [h] at hrow
    injection hrow with hfirst hmore
    subst hfirst hmore
    rfl

/-- The rows in front of a tail are found. -/
theorem rows_written {written : List Row} (h : WrittenInTurn Row.Written written bs)
    (htail : HoldsNoRow tail) : (rows (bs ++ tail)).1 = written := by
  induction h with
  | nil => exact rows_of_holdsNoRow htail
  | @cons row written first bs hfirst _ ih =>
      rw [List.append_assoc, rows_of_scan (scan_written hfirst (bs ++ tail)), ih]

/-- Every table is scanned to its end: it is the rows that are found, and a tail without one. -/
theorem exists_written_rows (table : Bytes) :
    ∃ bs tail, WrittenInTurn Row.Written (rows table).1 bs ∧ HoldsNoRow tail ∧
      table = bs ++ tail := by
  induction hlength : table.length using Nat.strongRecOn generalizing table with
  | _ n ih =>
      by_cases hnone : HoldsNoRow table
      · exact ⟨[], table, by rw [rows_of_holdsNoRow hnone]; exact .nil, hnone, rfl⟩
      · obtain ⟨row, rest, hscan⟩ : ∃ row rest, scan table = .row row rest := by
          simpa [holdsNoRow_iff] using hnone
        obtain ⟨first, hfirst, htable⟩ := exists_written_of_scan hscan
        obtain ⟨bs, tail, hbs, htail, hrest⟩ :=
          ih rest.length (hlength ▸ length_lt_of_scan hscan) rest rfl
        refine ⟨first ++ bs, tail, ?_, htail, by rw [htable, hrest, List.append_assoc]⟩
        rw [rows_of_scan hscan]
        exact .cons hfirst hbs

/-! ### Entries -/

/-- Whether a row stands for a file that is listed. -/
def Row.Listed (row : Row) : Prop :=
  row.isFile = true ∧ row.name.length ≤ Row.maxName ∧ row.realSize ≤ Row.maxSize ∧ row.key ≠ ""

instance (row : Row) : Decidable row.Listed :=
  inferInstanceAs (Decidable (_ ∧ _ ∧ _ ∧ _))

/-- Keys and entries with those of one more row: in the place of its key, or behind all others. -/
def Row.place (path : String) (priority : Int) (pairs : List (String × Entry)) (row : Row) :
    List (String × Entry) :=
  let pair := (row.key, row.entry path priority)
  if row.Listed then
    if row.key ∈ pairs.map Prod.fst then pairs.map fun p => if p.1 = row.key then pair else p
    else pairs ++ [pair]
  else pairs

theorem Row.accepted?_eq (row : Row) (path : String) (priority : Int) :
    row.accepted? path priority = if row.Listed then some (row.entry path priority) else none := by
  by_cases h : row.Listed
  · rw [if_pos h]
    exact Row.accepted?_eq_some h.1 h.2.1 h.2.2.1 h.2.2.2
  · rw [if_neg h]
    refine if_neg fun haccepted => h ?_
    simp only [Row.isSuspicious, Bool.and_eq_true, Bool.not_eq_true', Bool.or_eq_false_iff,
      decide_eq_true_eq, decide_eq_false_iff_not, Nat.not_lt] at haccepted
    exact ⟨haccepted.1.1, haccepted.1.2.1, haccepted.1.2.2, haccepted.2⟩

/-- The rows add their entries one after the other. -/
theorem entries_insertAll (m : OrderedMap String Entry) (written : List Row) (path : String)
    (priority : Int) :
    (m.insertAll
        ((written.filterMap (·.accepted? path priority)).map fun e => (e.key, e))).entries =
      written.foldl (Row.place path priority) m.entries := by
  induction written generalizing m with
  | nil => rfl
  | cons row written ih =>
      rw [List.foldl_cons, List.filterMap_cons, Row.accepted?_eq]
      by_cases hlisted : row.Listed
      · rw [if_pos hlisted]
        have hplace : (m.insert row.key (row.entry path priority)).entries =
            Row.place path priority m.entries row := by
          rw [Row.place, if_pos hlisted, OrderedMap.insert, OrderedMap.alter]
          by_cases hkey : row.key ∈ m.keys
          · rw [if_pos ((OrderedMap.contains_iff_mem_keys m row.key).mpr hkey)]
            exact (if_pos hkey).symm
          · rw [if_neg (mt (OrderedMap.contains_iff_mem_keys m row.key).mp hkey)]
            exact (if_neg hkey).symm
        rw [← hplace]
        exact ih (m.insert row.key (row.entry path priority))
      · have hplace : Row.place path priority m.entries row = m.entries := if_neg hlisted
        rw [if_neg hlisted, hplace]
        exact ih m

/-! ### Files -/

/-- The octets of a file with a table: a header that says where the table is, and there its size
in the file, another size that is not read, and a zlib stream of the table. -/
structure File.Tabled (data table : Bytes) : Prop where
  signed : data.take 15 = signature
  stored : ∃ before size stream behind : Bytes,
    data = before ++ (Bytes.ofNat 4 stream.length ++ (size ++ (stream ++ behind))) ∧
      before.length = headerSize + Bytes.toNat (data.slice 30 4) ∧ size.length = 4 ∧
      stream.length < Nat.pow 256 4 ∧ Deflate.inflateZlib stream = .ok table

namespace File

variable {f : File} {data : Bytes}

theorem Tabled.readTable_eq (h : Tabled data table) (path : String) :
    readTable path data (Bytes.toNat (data.slice 30 4)) = .ok (rows table) := by
  obtain ⟨before, size, stream, behind, hdata, hbefore, hsize, hstream, htable⟩ := h.stored
  have hplace : data.drop (headerSize + Bytes.toNat (data.slice 30 4)) =
      (Bytes.ofNat 4 stream.length ++ size) ++ (stream ++ behind) := by
    rw [← hbefore, List.append_assoc]
    conv_lhs => rw [hdata, List.drop_left]
  have hsizes : (Bytes.ofNat 4 stream.length ++ size).length = 8 := by simp [hsize]
  have hfirst : (Bytes.ofNat 4 stream.length ++ size).take 4 = Bytes.ofNat 4 stream.length :=
    List.take_left' (by simp)
  rw [readTable]
  simp only [hplace, List.take_left' hsizes, List.drop_left' hsizes, hsizes, hfirst,
    Bytes.toNat_ofNat hstream, List.take_left, htable]
  rw [if_neg (by decide), if_neg (by omega)]

theorem Tabled.readHeader_eq (h : Tabled data table) (f : File) :
    ∃ notices headed, f.readHeader data =
        (notices, some (headed, Bytes.toNat (data.slice 30 4))) ∧
      headed.path = f.path ∧ headed.priority = f.priority := by
  obtain ⟨before, size, stream, behind, hdata, hbefore, -⟩ := h.stored
  have hlong : headerSize ≤ data.length := by
    rw [hdata, List.length_append, hbefore]
    omega
  have hsignature : (data.take headerSize).take 15 = signature := by
    rw [List.take_take, ← h.signed]
    rfl
  have hfield : Bytes.slice (data.take headerSize) 30 4 = data.slice 30 4 := by
    rw [Bytes.slice, List.drop_take, List.take_take]
    rfl
  rw [readHeader]
  simp only [List.length_take, Nat.min_eq_left hlong, hsignature, hfield, Nat.lt_irrefl, if_false]
  exact ⟨_, _, rfl, rfl, rfl⟩

/-- A file that holds a table is opened, and lists the entries that its rows add one after the
other; every table is scanned to its end. -/
theorem open_lists_rows {disk : Disk} {working : Path} {written : List Row}
    (hread : disk.read working f.path = .ok data) (hdata : Tabled data (bs ++ tail))
    (hrows : WrittenInTurn Row.Written written bs) (htail : HoldsNoRow tail) :
    (∃ opened notices, f.open disk working = (opened, notices, true) ∧
      opened.path = f.path ∧ opened.data = some data ∧
      opened.entries.entries = written.foldl (Row.place f.path f.priority) []) ∧
    ∀ table : Bytes, ∃ octets left,
      WrittenInTurn Row.Written (rows table).1 octets ∧ HoldsNoRow left ∧
        table = octets ++ left := by
  obtain ⟨notices, headed, hheader, hpath, hpriority⟩ := hdata.readHeader_eq f
  refine ⟨?_, exists_written_rows⟩
  simp only [«open», hread, load, hheader, hdata.readTable_eq]
  refine ⟨_, _, rfl, hpath, rfl, ?_⟩
  rw [entriesOf, rows_written hrows htail, hpath, hpriority]
  exact entries_insertAll .empty written f.path f.priority

/-- Rows of two files and a folder, the first file named once more at the end. -/
def namedTwice : List Row :=
  [⟨Bytes.ofString "A", 1, 1, 1, 0⟩, ⟨Bytes.ofString "dir", 0, 0, 0, 0⟩,
    ⟨Bytes.ofString "b", 2, 9, 1, 1⟩, ⟨Bytes.ofString "\\a", 5, 5, 5, 3⟩]

/-- A file with these rows and behind them a row that is cut. -/
def namedTwiceFile : Bytes :=
  let table := namedTwice.flatMap Row.encode ++ [0x63, 0, 7]
  let stream := Deflate.storeZlib table
  (File.signature ++ List.replicate 15 0 ++ Bytes.ofNat 4 0 ++ Bytes.ofNat 4 0 ++
    Bytes.ofNat 4 11 ++ Bytes.ofNat 4 knownVersion) ++
    (Bytes.ofNat 4 stream.length ++ (Bytes.ofNat 4 table.length ++ (stream ++ [])))

theorem open_lists_rows_of_namedTwice :
    ∃ opened notices, (File.mk "/a.grf" 3 0 0 none {}).open
        (Disk.empty.putFile ["a.grf"] namedTwiceFile) [] = (opened, notices, true) ∧
      opened.entries.entries =
        [("a", ⟨"a", "\\a", 5, 5, 3, 5, "/a.grf", 3⟩),
          ("b", ⟨"b", "b", 2, 9, 1, 1, "/a.grf", 3⟩)] := by
  have hread : (Disk.empty.putFile ["a.grf"] namedTwiceFile).read [] "/a.grf" =
      .ok namedTwiceFile := by
    decide +kernel
  have hdata : Tabled namedTwiceFile (namedTwice.flatMap Row.encode ++ [0x63, 0, 7]) :=
    ⟨by decide +kernel, _, _, _, _, rfl, by decide +kernel, by decide +kernel, by decide +kernel,
      by decide +kernel⟩
  have hfits : ∀ row ∈ namedTwice, row.Fits := by
    intro row hrow
    simp only [namedTwice, List.mem_cons, List.not_mem_nil, or_false] at hrow
    rcases hrow with rfl | rfl | rfl | rfl <;> exact ⟨by decide, by decide, by decide, by decide⟩
  have htail : HoldsNoRow [0x63, 0, 7] := by
    have hcut : scan [0x63, 0, 7] = .cut := rfl
    exact holdsNoRow_iff.mpr fun row rest hrow => by simp [hcut] at hrow
  obtain ⟨⟨opened, notices, hopen, -, -, hentries⟩, -⟩ :=
    open_lists_rows (f := ⟨"/a.grf", 3, 0, 0, none, {}⟩) hread hdata
      (Row.written_flatMap_encode hfits) htail
  refine ⟨opened, notices, hopen, hentries.trans ?_⟩
  decide +kernel

end File

end Grf

end ArchiveExport
