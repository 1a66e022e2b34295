import ArchiveExport.Proofs.Text.Spelling

/-!
# Well-formed UTF-8

Octets are well formed if they are put together from forms of codes, each of them the shortest of
its code, none of a surrogate and none of a code above U+10FFFF. These are the octets of texts.
-/

namespace ArchiveExport.Text.Utf8

variable {bs : Bytes} {n : Nat}

/-- The forms of codes: one octet has room for seven bits, and a leading octet with one, two or
three behind it for eleven, sixteen or twenty-one. -/
inductive Form : Bytes → Nat → Prop
  | one {n : Nat} (h : n < 0x80) : Form [UInt8.ofNat n] n
  | two {n : Nat} (h : n < 0x800) :
      Form [UInt8.ofNat (n / 64 + 192), UInt8.ofNat (n % 64 + 128)] n
  | three {n : Nat} (h : n < 0x10000) :
      Form [UInt8.ofNat (n / 4096 + 224), UInt8.ofNat (n / 64 % 64 + 128),
        UInt8.ofNat (n % 64 + 128)] n
  | four {n : Nat} (h : n < 0x200000) :
      Form [UInt8.ofNat (n / 262144 + 240), UInt8.ofNat (n / 4096 % 64 + 128),
        UInt8.ofNat (n / 64 % 64 + 128), UInt8.ofNat (n % 64 + 128)] n

/-- The well-formed octets of a single code. -/
structure WellFormedCode (bs : Bytes) (n : Nat) : Prop where
  form : Form bs n
  shortest : ∀ other, Form other n → bs.length ≤ other.length
  notSurrogate : ¬ (0xD800 ≤ n ∧ n ≤ 0xDFFF)
  inRange : n ≤ 0x10FFFF

/-- Octets consist of well-formed ones of single codes. -/
def WellFormed (bs : Bytes) : Prop :=
  ∃ pieces : List Bytes, bs = pieces.flatten ∧ ∀ piece ∈ pieces, ∃ n, WellFormedCode piece n

/-- A form that has room for a code is no shorter than the code needs. -/
theorem Form.length_ge (h : Form bs n) :
    (0x80 ≤ n → 2 ≤ bs.length) ∧ (0x800 ≤ n → 3 ≤ bs.length) ∧ (0x10000 ≤ n → 4 ≤ bs.length) := by
  cases h <;> simp only [List.length_cons, List.length_nil] <;> omega

theorem form_utf8EncodeChar (h : n.isValidChar) :
    Form (String.utf8EncodeChar (Char.ofNat n)) n := by
  have hrange : n < 0x110000 := by
    rw [Nat.isValidChar] at h
    omega
  rw [utf8EncodeChar_ofNat h]
  split
  next hone => exact .one (by omega)
  split
  next htwo =>
    rw [Nat.mod_eq_of_lt (show n / 64 < 32 by omega)]
    exact .two (by omega)
  split
  next hthree =>
    rw [Nat.mod_eq_of_lt (show n / 4096 < 16 by omega)]
    exact .three (by omega)
  next hfour =>
    rw [Nat.mod_eq_of_lt (show n / 262144 < 8 by omega)]
    exact .four (by omega)

theorem length_utf8EncodeChar_le (h : n.isValidChar) {other : Bytes} (hother : Form other n) :
    (String.utf8EncodeChar (Char.ofNat n)).length ≤ other.length := by
  obtain ⟨htwo, hthree, hfour⟩ := hother.length_ge
  have hone : 1 ≤ other.length := by
    cases hother <;> simp
  rw [utf8EncodeChar_ofNat h]
  split_ifs <;> simp only [List.length_cons, List.length_nil] <;> omega

/-- There is one form of a length for each code. -/
theorem Form.eq_of_length_eq {other : Bytes} (h : Form bs n) (hother : Form other n)
    (hlength : bs.length = other.length) : bs = other := by
  cases h <;> cases hother <;> first | rfl | simp at hlength

/-- The well-formed octets of a code are those of a character. -/
theorem wellFormedCode_iff :
    WellFormedCode bs n ↔ n.isValidChar ∧ bs = String.utf8EncodeChar (Char.ofNat n) := by
  constructor
  · rintro ⟨hform, hshortest, hsurrogate, hrange⟩
    have hvalid : n.isValidChar := by
      rw [Nat.isValidChar]
      omega
    have hencoded := form_utf8EncodeChar hvalid
    refine ⟨hvalid, hform.eq_of_length_eq hencoded (Nat.le_antisymm ?_ ?_)⟩
    · exact hshortest _ hencoded
    · exact length_utf8EncodeChar_le hvalid hform
  · rintro ⟨hvalid, rfl⟩
    refine ⟨form_utf8EncodeChar hvalid, fun other => length_utf8EncodeChar_le hvalid, ?_, ?_⟩
    all_goals
      rw [Nat.isValidChar] at hvalid
      omega

/-- The octets of texts are the well-formed ones. -/
theorem spells_iff_wellFormed : Spells bs ↔ WellFormed bs := by
  constructor
  · rintro ⟨cs, rfl⟩
    refine ⟨cs.map String.utf8EncodeChar, List.flatMap_def .., ?_⟩
    simp only [List.forall_mem_map]
    intro c hc
    refine ⟨c.toNat, wellFormedCode_iff.mpr ⟨c.valid, ?_⟩⟩
    rw [Char.ofNat_toNat]
  · rintro ⟨pieces, rfl, hpieces⟩
    induction pieces with
    | nil => exact ⟨[], rfl⟩
    | cons piece pieces ih =>
        obtain ⟨⟨n, hpiece⟩, hrest⟩ := List.forall_mem_cons.mp hpieces
        obtain ⟨-, rfl⟩ := wellFormedCode_iff.mp hpiece
        obtain ⟨cs, hcs⟩ := ih hrest
        refine ⟨Char.ofNat n :: cs, ?_⟩
        rw [List.flatten_cons, hcs, encode, encode, List.flatMap_cons]

end ArchiveExport.Text.Utf8
