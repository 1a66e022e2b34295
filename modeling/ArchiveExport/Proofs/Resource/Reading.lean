import ArchiveExport.Proofs.Resource.Sequence
import ArchiveExport.Proofs.Text.Utf8
import ArchiveExport.Resource.Reader

/-!
# What is read back

Some octets spell a value for a reader of records when they are read as that value wherever they
stand, and when nothing is read where they are cut. The laws for the single readers compose, so
that a record of many fields is read back because each of its fields is.
-/

namespace ArchiveExport

variable {α β : Type} {a : α} {b : β} {bs done rest : Bytes}

namespace Reader

/-- The reader with some octets behind it and others in front of it. -/
def behind (done rest : Bytes) : Reader := ofBytes (done ++ rest) done.length

@[simp] theorem rest_behind (done rest : Bytes) : (behind done rest).rest = rest := by
  have hstart : start (done ++ rest).length done.length = done.length :=
    if_neg (Int.not_lt.mpr (Int.natCast_nonneg done.length))
  rw [(behind done rest).rest_eq]
  exact (congrArg (done ++ rest).drop hstart).trans List.drop_left

@[simp] theorem remaining_behind (done rest : Bytes) :
    (behind done rest).remaining = rest.length := by
  simp only [behind, ofBytes, remaining, List.length_append, Int.natCast_add]
  omega

theorem advance_behind (done bs rest : Bytes) :
    (behind done (bs ++ rest)).advance bs.length = behind (done ++ bs) rest := by
  rw [advance_eq_seek, behind, behind, seek, List.append_assoc, List.length_append]
  rfl

end Reader

open Reader (behind)

namespace Reading

variable {read : Reading α} {next : α → Reading β} {w : α → Bytes → Prop} {values : List α}

theorem bind_of_ok {r r' : Reader} (h : read r = .ok (a, r')) : (read >>= next) r = next a r' := by
  change (read r >>= fun x => next x.1 x.2) = _
  rw [h]
  rfl

theorem bind_of_error {r : Reader} {fault : Reader.Fault} (h : read r = .error fault) :
    (read >>= next) r = .error fault := by
  change (read r >>= fun x => next x.1 x.2) = _
  rw [h]
  rfl

theorem remaining_bind (next : Int → Reading β) (r : Reader) :
    (remaining >>= next) r = next r.remaining r := rfl

/-- Wherever the octets stand, they are read as a value, and nothing behind them is read. -/
def Reads (read : Reading α) (bs : Bytes) (a : α) : Prop :=
  ∀ done rest, read (behind done (bs ++ rest)) = .ok (a, behind (done ++ bs) rest)

/-- The octets are read as a value, and they are all needed for it. -/
structure Spells (read : Reading α) (bs : Bytes) (a : α) : Prop where
  reads : Reads read bs a
  refuses : ∀ done cut missing, cut ++ missing = bs → missing ≠ [] →
    ∃ fault, read (behind done cut) = .error fault

/-! ### Reading one thing after the other -/

theorem Reads.pure (a : α) : Reads (pure a) [] a := by
  intro done rest
  rw [List.append_nil]
  rfl

theorem Reads.bind {first more : Bytes} (hfirst : Reads read first a)
    (hnext : Reads (next a) more b) : Reads (read >>= next) (first ++ more) b := by
  intro done rest
  rw [List.append_assoc, bind_of_ok (hfirst done (more ++ rest)), hnext, List.append_assoc]

theorem Reads.bind_pure (h : Reads read bs a) (f : α → β) :
    Reads (read >>= fun x => Pure.pure (f x)) bs (f a) := by
  have hbind : Reads (read >>= fun x => Pure.pure (f x)) (bs ++ []) (f a) := h.bind (.pure (f a))
  rwa [List.append_nil] at hbind

theorem Spells.pure (a : α) : Spells (pure a) [] a where
  reads := .pure a
  refuses _ _ _ hcut hmissing := absurd (List.append_eq_nil_iff.mp hcut).2 hmissing

theorem Spells.bind {first more : Bytes} (hfirst : Spells read first a)
    (hnext : Spells (next a) more b) : Spells (read >>= next) (first ++ more) b where
  reads := hfirst.reads.bind hnext.reads
  refuses done cut missing hcut hmissing := by
    rcases eq_append_or_eq_append hcut with ⟨gap, hgap, hwhole, -⟩ | ⟨begun, rfl, hbegun⟩
    · obtain ⟨fault, hfault⟩ := hfirst.refuses done cut gap hwhole hgap
      exact ⟨fault, bind_of_error hfault⟩
    · obtain ⟨fault, hfault⟩ := hnext.refuses (done ++ first) begun missing hbegun hmissing
      exact ⟨fault, (bind_of_ok (hfirst.reads done begun)).trans hfault⟩

theorem Spells.bind_pure (h : Spells read bs a) (f : α → β) :
    Spells (read >>= fun x => Pure.pure (f x)) bs (f a) := by
  have hbind : Spells (read >>= fun x => Pure.pure (f x)) (bs ++ []) (f a) := h.bind (.pure (f a))
  rwa [List.append_nil] at hbind

/-- A field that only some files have, and a value for the others. -/
theorem Spells.bind_optional {c : Prop} [Decidable c] {d : α} {first more : Bytes}
    (hfield : c → Spells read first a) (hnone : ¬ c → a = d) (hnext : Spells (next a) more b) :
    Spells (if c then read >>= next else Pure.pure d >>= next)
      ((if c then first else []) ++ more) b := by
  by_cases hc : c
  · rw [if_pos hc, if_pos hc]
    exact (hfield hc).bind hnext
  · rw [if_neg hc, if_neg hc, ← hnone hc]
    exact (Spells.pure a).bind hnext

theorem Spells.bind_optional_last {c : Prop} [Decidable c] {d : α}
    (hfield : c → Spells read bs a) (hnone : ¬ c → a = d) (hnext : next a = Pure.pure b) :
    Spells (if c then read >>= next else Pure.pure d >>= next) (if c then bs else []) b := by
  have hread := Spells.bind_optional hfield hnone (hnext ▸ Spells.pure b)
  rwa [List.append_nil] at hread

/-! ### Single fields -/

theorem block_append (bs done rest : Bytes) :
    block bs.length (behind done (bs ++ rest)) = .ok (bs, behind (done ++ bs) rest) := by
  have hoffset : (behind done (bs ++ rest)).offset = done.length := rfl
  have hremaining : (behind done (bs ++ rest)).remaining = (bs ++ rest).length :=
    Reader.remaining_behind _ _
  rw [List.length_append] at hremaining
  rw [block, if_neg (by omega), if_neg (by omega), if_neg (by omega), Reader.rest_behind,
    List.take_left, Reader.advance_behind]

theorem exists_record_of_le (layout : Layout α) (h : layout.width ≤ bs.length) (done : Bytes) :
    ∃ a r, record layout (behind done bs) = .ok (a, r) := by
  have hblock := block_append (bs.take layout.width) done (bs.drop layout.width)
  rw [List.take_append_drop, List.length_take, Nat.min_eq_left h] at hblock
  exact ⟨_, _, bind_of_ok hblock⟩

theorem record_of_lt (layout : Layout α) {r : Reader} (h : r.remaining < layout.width) :
    ∃ fault, record layout r = .error fault := by
  have hblock : ∃ fault, block layout.width r = .error fault := by
    rw [block, if_pos h]
    split
    · exact ⟨_, rfl⟩
    · split <;> exact ⟨_, rfl⟩
  obtain ⟨fault, hfault⟩ := hblock
  exact ⟨fault, bind_of_error hfault⟩

theorem record_of_short (layout : Layout α) {cut : Bytes} (h : cut.length < layout.width)
    (done : Bytes) : ∃ fault, record layout (behind done cut) = .error fault :=
  record_of_lt layout (by simpa using h)

theorem Spells.record (layout : Layout α) (a : α) :
    Spells (record layout) (layout.encode a) a where
  reads done rest := by
    have hblock := block_append (layout.encode a) done rest
    rw [layout.length_encode] at hblock
    have hread : Reading.record layout (behind done (layout.encode a ++ rest)) =
        .ok (layout.decode (layout.encode a), behind (done ++ layout.encode a) rest) :=
      bind_of_ok hblock
    rw [hread, layout.decode_encode]
  refuses done cut missing hcut hmissing := by
    have hshort := length_lt_of_append_eq hcut hmissing
    rw [layout.length_encode] at hshort
    exact record_of_short layout hshort done

theorem Spells.skip {count : Int} (h : bs.length = count) : Spells (skip count) bs () where
  reads done rest := by
    have hlength : ¬ ((bs ++ rest).length : Int) < count := by
      rw [← h, List.length_append]
      omega
    rw [Reading.skip, Reader.remaining_behind, if_neg hlength, ← h, Reader.advance_behind]
  refuses done cut missing hcut hmissing := by
    refine ⟨.skip count done.length, ?_⟩
    have hlength : (cut.length : Int) < count := by
      have := length_lt_of_append_eq hcut hmissing
      omega
    rw [Reading.skip, Reader.remaining_behind, if_pos hlength]
    rfl

/-- The octets of a name field: the text, and anything behind a NUL. -/
def NameWritten (length : Nat) (text : String) (bs : Bytes) : Prop :=
  ∃ filler : Bytes, (∀ b ∈ filler.head?, b = 0) ∧ bs = Bytes.ofString text ++ filler ∧
    bs.length = length

theorem exists_nameWritten {length : Nat} {text : String}
    (h : (Bytes.ofString text).length ≤ length) : ∃ bs, NameWritten length text bs := by
  refine ⟨_, List.replicate (length - (Bytes.ofString text).length) 0, fun b hb => ?_, rfl, ?_⟩
  · exact List.eq_of_mem_replicate (List.mem_of_mem_head? hb)
  · rw [List.length_append, List.length_replicate]
    omega

theorem nameText_append {text : String} {filler : Bytes} (htext : 0 ∉ Bytes.ofString text)
    (hfiller : ∀ b ∈ filler.head?, b = 0) :
    Reader.nameText (Bytes.ofString text ++ filler) = text := by
  have hnone : filler.takeWhile (· ≠ 0) = [] := by
    cases filler with
    | nil => rfl
    | cons b filler => rw [hfiller b rfl]; rfl
  have hall : ∀ b ∈ Bytes.ofString text, (b ≠ 0) = true := by
    intro b hb
    simpa using ne_of_mem_of_not_mem hb htext
  have hoctets : (Bytes.ofString text ++ filler).takeWhile (· ≠ 0) =
      Text.Utf8.encode text.toList := by
    rw [List.takeWhile_append_of_pos (by simpa using hall), hnone, List.append_nil]
    rfl
  simp only [Reader.nameText, hoctets, Text.Utf8.decode_encode, String.ofList_toList]

theorem name_append (bs done rest : Bytes) :
    name bs.length (behind done (bs ++ rest)) =
      .ok (Reader.nameText bs, behind (done ++ bs) rest) := by
  have hholds : (behind done (bs ++ rest)).holds bs.length = true := by
    have hoffset : ¬ (behind done (bs ++ rest)).offset < 0 :=
      Int.not_lt.mpr (Int.natCast_nonneg done.length)
    have hlength : (bs ++ rest).length = bs.length + rest.length := List.length_append
    rw [Reader.holds, if_neg hoffset, Reader.remaining_behind]
    simp only [Bool.or_eq_true, Bool.and_eq_true, decide_eq_true_eq]
    omega
  rw [name, if_pos hholds, Reader.rest_behind, Reader.advance_behind, Int.toNat_natCast,
    List.take_left]

theorem Reads.name {length : Nat} {text : String} (htext : 0 ∉ Bytes.ofString text)
    (hbs : NameWritten length text bs) : Reads (name length) bs text := by
  obtain ⟨filler, hfiller, rfl, rfl⟩ := hbs
  intro done rest
  rw [name_append, nameText_append htext hfiller]

/-! ### Readers of fixed size -/

/-- The reader needs so many octets: it takes them where they are left, and fails where they are
not. -/
structure Takes (read : Reading α) (n : Nat) : Prop where
  enough : ∀ bs : Bytes, bs.length = n → ∃ a, Reads read bs a
  short : ∀ done bs : Bytes, bs.length < n → ∃ fault, read (behind done bs) = .error fault

theorem Takes.pure (a : α) : Takes (pure a) 0 where
  enough _ hbs := ⟨a, List.length_eq_zero_iff.mp hbs ▸ Reads.pure a⟩
  short _ _ h := absurd h (Nat.not_lt_zero _)

theorem Takes.bind {m n : Nat} (hfirst : Takes read m) (hnext : ∀ a, Takes (next a) n) :
    Takes (read >>= next) (m + n) where
  enough bs hbs := by
    obtain ⟨a, ha⟩ := hfirst.enough (bs.take m) (by rw [List.length_take]; omega)
    obtain ⟨b, hb⟩ := (hnext a).enough (bs.drop m) (by rw [List.length_drop]; omega)
    exact ⟨b, List.take_append_drop m bs ▸ ha.bind hb⟩
  short done bs hbs := by
    by_cases hcut : bs.length < m
    · obtain ⟨fault, hfault⟩ := hfirst.short done bs hcut
      exact ⟨fault, bind_of_error hfault⟩
    · obtain ⟨a, ha⟩ := hfirst.enough (bs.take m) (by rw [List.length_take]; omega)
      obtain ⟨fault, hfault⟩ := (hnext a).short (done ++ bs.take m) (bs.drop m)
        (by rw [List.length_drop]; omega)
      have hread := ha done (bs.drop m)
      rw [List.take_append_drop] at hread
      exact ⟨fault, (bind_of_ok hread).trans hfault⟩

theorem Takes.bind_pure {n : Nat} (h : Takes read n) (f : α → β) :
    Takes (read >>= fun x => Pure.pure (f x)) n :=
  h.bind fun a => .pure (f a)

theorem Takes.record (layout : Layout α) : Takes (record layout) layout.width where
  enough bs hbs := by
    refine ⟨layout.decode bs, fun done rest => ?_⟩
    exact bind_of_ok (hbs ▸ block_append bs done rest)
  short done _ h := record_of_short layout h done

theorem Takes.name (length : Nat) : Takes (name length) length where
  enough _ hbs := ⟨_, fun done rest => hbs ▸ name_append _ done rest⟩
  short done bs h := by
    have hoffset : ¬ (behind done bs).offset < 0 := Int.not_lt.mpr (Int.natCast_nonneg done.length)
    have hholds : ¬ (behind done bs).holds length = true := by
      rw [Reader.holds, if_neg hoffset, Reader.remaining_behind]
      simp only [Bool.or_eq_true, Bool.and_eq_true, decide_eq_true_eq]
      omega
    exact ⟨_, if_neg hholds⟩

/-! ### Fields that only some versions have -/

/-- A field that is there or not, and the value that it has where it is not. -/
def ifStored (c : Bool) (read : Reading α) (d : α) : Reading α :=
  if c then read else Pure.pure d

/-- How a field that is there or not is written. -/
def WrittenIf (c : Bool) (w : Bytes → Prop) (bs : Bytes) : Prop :=
  if c then w bs else bs = []

theorem exists_writtenIf {c : Bool} {w : Bytes → Prop} (h : c = true → ∃ bs, w bs) :
    ∃ bs, WrittenIf c w bs := by
  cases c with
  | false => exact ⟨[], rfl⟩
  | true => exact h rfl

theorem WrittenIf.length_eq {c : Bool} {w : Bytes → Prop} {n : Nat}
    (hbs : WrittenIf c w bs) (hlength : c = true → w bs → bs.length = n) :
    bs.length = if c then n else 0 := by
  cases c with
  | false => exact List.length_eq_zero_iff.mpr hbs
  | true => exact hlength rfl hbs

theorem Reads.ifStored {c : Bool} {d : α} {w : Bytes → Prop} (hbs : WrittenIf c w bs)
    (hread : c = true → w bs → Reads read bs a) (hnone : c = false → a = d) :
    Reads (ifStored c read d) bs a := by
  cases c with
  | false =>
      rw [show bs = [] from hbs, hnone rfl]
      exact .pure d
  | true => exact hread rfl hbs

theorem Takes.ifStored {n : Nat} (c : Bool) (h : Takes read n) (d : α) :
    Takes (ifStored c read d) (if c then n else 0) := by
  cases c with
  | false => exact .pure d
  | true => exact h

/-! ### Lists of values -/

theorem Reads.times (hvalues : WrittenInTurn w values bs)
    (hread : ∀ a ∈ values, ∀ bs, w a bs → Reads read bs a) :
    Reads (times read values.length) bs values := by
  induction hvalues with
  | nil => exact .pure []
  | @cons a values first bs hfirst hmore ih =>
      rw [List.forall_mem_cons] at hread
      exact (hread.1 first hfirst).bind ((ih hread.2).bind_pure _)

theorem Spells.times (hvalues : WrittenInTurn w values bs)
    (hread : ∀ a ∈ values, ∀ bs, w a bs → Spells read bs a) :
    Spells (times read values.length) bs values := by
  induction hvalues with
  | nil => exact .pure []
  | @cons a values first bs hfirst hmore ih =>
      rw [List.forall_mem_cons] at hread
      exact (hread.1 first hfirst).bind ((ih hread.2).bind_pure _)

/-- Where there is room for so many names, so many are read. -/
theorem exists_times_name_of_le (length count : Nat) (h : length * count ≤ bs.length)
    (done : Bytes) :
    ∃ names r, times (name length) count (behind done bs) = .ok (names, r) ∧
      names.length = count := by
  induction count generalizing bs done with
  | zero => exact ⟨[], _, rfl, rfl⟩
  | succ count ih =>
      rw [Nat.mul_add_one] at h
      have hfirst := name_append (bs.take length) done (bs.drop length)
      rw [List.take_append_drop, List.length_take, Nat.min_eq_left (by omega)] at hfirst
      obtain ⟨names, r, hread, hlength⟩ :=
        @ih (bs.drop length) (by rw [List.length_drop]; omega) (done ++ bs.take length)
      refine ⟨Reader.nameText (bs.take length) :: names, r, ?_, by rw [List.length_cons, hlength]⟩
      exact (bind_of_ok hfirst).trans (bind_of_ok hread)

section Width

variable {width count : Nat} {r r' r'' : Reader}

theorem timesWhile_of_lt (h : r.remaining < width) :
    timesWhile width read count r = .ok ([], r) := by
  cases count with
  | zero => rfl
  | succ count =>
      rw [timesWhile, remaining_bind, if_pos h]
      rfl

theorem timesWhile_of_not_lt (h : ¬ r.remaining < width) (hread : read r = .ok (a, r'))
    (hmore : timesWhile width read count r' = .ok (values, r'')) :
    timesWhile width read (count + 1) r = .ok (a :: values, r'') := by
  rw [timesWhile, remaining_bind, if_neg h, bind_of_ok hread, bind_of_ok hmore]
  rfl

variable (hread : ∀ a bs, w a bs → Reads read bs a) (hwidth : ∀ a bs, w a bs → bs.length = width)

include hread hwidth

theorem Reads.timesWhile (hvalues : WrittenInTurn w values bs) :
    Reads (timesWhile width read values.length) bs values := by
  intro done rest
  induction hvalues generalizing done with
  | nil =>
      rw [List.append_nil]
      rfl
  | @cons a values first bs hfirst hmore ih =>
      have hlong : ¬ (behind done ((first ++ bs) ++ rest)).remaining < width := by
        rw [Reader.remaining_behind, ← hwidth a first hfirst, List.length_append,
          List.length_append]
        omega
      rw [List.append_assoc] at hlong ⊢
      rw [← List.append_assoc done]
      exact timesWhile_of_not_lt hlong (hread a first hfirst done (bs ++ rest)) (ih _)

/-- Where values of one width are cut, those in front of the cut are read. -/
theorem timesWhile_cut (hvalues : WrittenInTurn w values bs) {cut missing : Bytes}
    (hcut : cut ++ missing = bs) (hmissing : missing ≠ []) (done : Bytes) :
    ∃ kept taken left, kept <+: values ∧ kept ≠ values ∧ left.length < width ∧
      cut = taken ++ left ∧
      timesWhile width read values.length (behind done cut) =
        .ok (kept, behind (done ++ taken) left) := by
  induction hvalues generalizing cut done with
  | nil => exact absurd (List.append_eq_nil_iff.mp hcut).2 hmissing
  | @cons a values first bs hfirst hmore ih =>
      rcases eq_append_or_eq_append hcut with ⟨gap, hgap, hwhole, -⟩ | ⟨begun, rfl, hbegun⟩
      · have hshort := length_lt_of_append_eq hwhole hgap
        rw [hwidth a _ hfirst] at hshort
        refine ⟨[], [], cut, List.nil_prefix, by simp, hshort, rfl, ?_⟩
        rw [List.append_nil]
        exact timesWhile_of_lt (by simpa using hshort)
      · obtain ⟨kept, taken, left, hprefix, hne, hleft, rfl, hread'⟩ := ih hbegun (done ++ first)
        refine ⟨a :: kept, first ++ taken, left, List.prefix_cons_inj a |>.mpr hprefix, by simpa,
          hleft, (List.append_assoc _ _ _).symm, ?_⟩
        have hlong : ¬ (behind done (first ++ (taken ++ left))).remaining < width := by
          rw [Reader.remaining_behind, ← hwidth a first hfirst, List.length_append]
          omega
        rw [← List.append_assoc done]
        exact timesWhile_of_not_lt hlong (hread a first hfirst done _) hread'

end Width

end Reading

end ArchiveExport
