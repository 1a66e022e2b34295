import ArchiveExport.Text.Utf8

/-!
# Reading UTF-8 back

The octets of a text are read strictly as that text. Inside a character the machine is told by the
octets that complete it; which octet may follow the first one depends on that octet alone.
-/

namespace ArchiveExport.Text.Utf8

variable {p : Partial} {c : Char} {bs : Bytes} {n m : Nat}

/-- The octets complete a character begun. -/
def Partial.Completes (p : Partial) (bs : Bytes) (c : Char) : Prop :=
  ∀ position done rest,
    run position (some p) done (bs ++ rest) = run (position + bs.length) none (c :: done) rest

/-- Whether the next octet of a character begun may carry the code `m`. -/
def Partial.Admits (p : Partial) (m : Nat) : Prop :=
  m < 64 ∧ p.low ≤ m + 128 ∧ m + 128 ≤ p.high

theorem Partial.next_ofNat (h : p.Admits m) :
    p.next (UInt8.ofNat (m + 128)) =
      if p.owed ≤ 1 then .emit (Char.ofNat (64 * p.code + m))
      else .more ⟨p.position, p.first, p.taken + 1, p.owed - 1, 64 * p.code + m, 0x80, 0xBF⟩ := by
  obtain ⟨hcode, hrange⟩ := h
  have hoctet : (UInt8.ofNat (m + 128)).toNat = m + 128 :=
    UInt8.toNat_ofNat_of_lt' (show m + 128 < 256 by omega)
  rw [Partial.next, hoctet]
  simp only [if_pos hrange, Nat.add_sub_cancel]

theorem Partial.completes_last (h : p.Admits m) (howed : p.owed ≤ 1)
    (hcode : 64 * p.code + m = c.toNat) : p.Completes [UInt8.ofNat (m + 128)] c := by
  intro position done rest
  rw [List.singleton_append, run, p.next_ofNat h, if_pos howed, hcode, Char.ofNat_toNat]
  rfl

theorem Partial.completes_cons (h : p.Admits m) (howed : 1 < p.owed)
    (hrest : Partial.Completes
      ⟨p.position, p.first, p.taken + 1, p.owed - 1, 64 * p.code + m, 0x80, 0xBF⟩ bs c) :
    p.Completes (UInt8.ofNat (m + 128) :: bs) c := by
  intro position done rest
  rw [List.cons_append, run, p.next_ofNat h, if_neg (Nat.not_le.mpr howed)]
  rw [List.length_cons, Nat.add_comm bs.length, ← Nat.add_assoc]
  exact hrest (position + 1) done rest

/-! ### The first octet of a character -/

theorem begin_two (position : Nat) (hlow : 2 ≤ n) (hhigh : n < 32) :
    begin position (UInt8.ofNat (n + 192)) =
      .more ⟨position, UInt8.ofNat (n + 192), 1, 1, n, 0x80, 0xBF⟩ := by
  have hoctet : (UInt8.ofNat (n + 192)).toNat = n + 192 :=
    UInt8.toNat_ofNat_of_lt' (show n + 192 < 256 by omega)
  simp only [begin, hoctet]
  rw [if_neg (by omega), if_neg (by omega), if_pos (by omega), Nat.add_sub_cancel]

/-- Three octets hold no code below 0x800 and no surrogate. -/
theorem begin_three (position : Nat) (hn : n < 16) :
    ∃ low high, begin position (UInt8.ofNat (n + 224)) =
        .more ⟨position, UInt8.ofNat (n + 224), 1, 2, n, low, high⟩ ∧
      ∀ m < 64, (n = 0 → 32 ≤ m) → (n = 13 → m < 32) → low ≤ m + 128 ∧ m + 128 ≤ high := by
  have hoctet : (UInt8.ofNat (n + 224)).toNat = n + 224 :=
    UInt8.toNat_ofNat_of_lt' (show n + 224 < 256 by omega)
  simp only [begin, hoctet]
  rw [if_neg (by omega), if_neg (by omega), if_neg (by omega)]
  by_cases hfirst : n = 0
  · subst hfirst
    exact ⟨0xA0, 0xBF, rfl, by omega⟩
  by_cases hsurrogate : n = 13
  · subst hsurrogate
    exact ⟨0x80, 0x9F, rfl, by omega⟩
  rw [if_neg (by omega), if_neg (by omega), if_pos (by omega), Nat.add_sub_cancel]
  exact ⟨0x80, 0xBF, rfl, by omega⟩

/-- Four octets hold no code below 0x10000 and none above 0x10FFFF. -/
theorem begin_four (position : Nat) (hn : n < 5) :
    ∃ low high, begin position (UInt8.ofNat (n + 240)) =
        .more ⟨position, UInt8.ofNat (n + 240), 1, 3, n, low, high⟩ ∧
      ∀ m < 64, (n = 0 → 16 ≤ m) → (n = 4 → m < 16) → low ≤ m + 128 ∧ m + 128 ≤ high := by
  have hoctet : (UInt8.ofNat (n + 240)).toNat = n + 240 :=
    UInt8.toNat_ofNat_of_lt' (show n + 240 < 256 by omega)
  simp only [begin, hoctet]
  rw [if_neg (by omega), if_neg (by omega), if_neg (by omega), if_neg (by omega),
    if_neg (by omega), if_neg (by omega)]
  by_cases hfirst : n = 0
  · subst hfirst
    exact ⟨0x90, 0xBF, rfl, by omega⟩
  by_cases hlast : n = 4
  · subst hlast
    exact ⟨0x80, 0x8F, rfl, by omega⟩
  rw [if_neg (by omega), if_pos (by omega), Nat.add_sub_cancel]
  exact ⟨0x80, 0xBF, rfl, by omega⟩

/-! ### Characters and texts -/

/-- Octets that begin a character and those that complete it. -/
theorem run_begin_append {b : UInt8} {position : Nat}
    (hbegin : begin position b = .more p) (hrest : p.Completes bs c) (done : List Char)
    (rest : Bytes) :
    run position none done (b :: (bs ++ rest)) =
      run (position + (b :: bs).length) none (c :: done) rest := by
  rw [run, hbegin, List.length_cons, Nat.add_comm bs.length, ← Nat.add_assoc]
  exact hrest (position + 1) done rest

/-- The octets of a character are read as that character. -/
theorem run_utf8EncodeChar_append (c : Char) (position : Nat) (done : List Char) (rest : Bytes) :
    run position none done (String.utf8EncodeChar c ++ rest) =
      run (position + (String.utf8EncodeChar c).length) none (c :: done) rest := by
  have hvalid : c.toNat < 0xD800 ∨ (0xDFFF < c.toNat ∧ c.toNat < 0x110000) := c.valid
  have hval : c.val.toNat = c.toNat := rfl
  rw [String.utf8EncodeChar, hval]
  split
  next hone =>
    have hoctet : (UInt8.ofNat c.toNat).toNat = c.toNat :=
      UInt8.toNat_ofNat_of_lt' (show c.toNat < 256 by omega)
    have hbegin : begin position (UInt8.ofNat c.toNat) = .emit c := by
      simp only [begin, hoctet]
      rw [if_pos (by omega), Char.ofNat_toNat]
    rw [List.singleton_append, run, hbegin]
    rfl
  split
  next htwo =>
    have hlead : c.toNat / 64 % 32 = c.toNat / 64 := Nat.mod_eq_of_lt (by omega)
    rw [hlead]
    have hlast : Partial.Completes
        ⟨position, UInt8.ofNat (c.toNat / 64 + 192), 1, 1, c.toNat / 64, 0x80, 0xBF⟩
        [UInt8.ofNat (c.toNat % 64 + 128)] c :=
      Partial.completes_last ⟨by omega, by dsimp only; omega⟩ (by simp) (by dsimp only; omega)
    exact run_begin_append (begin_two position (by omega) (by omega)) hlast done rest
  split
  next hthree =>
    have hlead : c.toNat / 4096 % 16 = c.toNat / 4096 := Nat.mod_eq_of_lt (by omega)
    rw [hlead]
    obtain ⟨low, high, hbegin, hadmits⟩ := @begin_three (c.toNat / 4096) position (by omega)
    refine run_begin_append hbegin ?_ done rest
    refine Partial.completes_cons
      ⟨by omega, hadmits _ (by omega) (by omega) (by omega)⟩ (by simp) ?_
    exact Partial.completes_last ⟨by omega, by dsimp only; omega⟩ (by simp) (by dsimp only; omega)
  next hfour =>
    have hlead : c.toNat / 262144 % 8 = c.toNat / 262144 := Nat.mod_eq_of_lt (by omega)
    rw [hlead]
    obtain ⟨low, high, hbegin, hadmits⟩ := @begin_four (c.toNat / 262144) position (by omega)
    refine run_begin_append hbegin ?_ done rest
    refine Partial.completes_cons
      ⟨by omega, hadmits _ (by omega) (by omega) (by omega)⟩ (by simp) ?_
    refine Partial.completes_cons ⟨by omega, by dsimp only; omega⟩ (by simp) ?_
    exact Partial.completes_last ⟨by omega, by dsimp only; omega⟩ (by simp) (by dsimp only; omega)

theorem run_encode (cs : List Char) (position : Nat) (done : List Char) :
    run position none done (encode cs) = .ok (done.reverse ++ cs, none) := by
  induction cs generalizing position done with
  | nil => simp [encode, run]
  | cons c cs ih =>
      rw [encode, List.flatMap_cons, run_utf8EncodeChar_append, ← encode, ih, List.reverse_cons,
        List.append_assoc, List.singleton_append]

/-- The octets of a text are read as that text. -/
theorem decode_encode (cs : List Char) : decode (encode cs) = .ok cs := by
  rw [decode, run_encode]
  rfl

end ArchiveExport.Text.Utf8
