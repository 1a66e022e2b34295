import ArchiveExport.Proofs.Text.Utf8
import Mathlib.Tactic.ByContra
import Mathlib.Tactic.SplitIfs

/-!
# What octets spell

Octets that are read without a fault are those of the characters read, and behind them the octets
of a character left open. So exactly the octets of texts are read to an end between characters, and
since reading goes on from where it was left, it does not matter into which pieces they come.
-/

namespace ArchiveExport.Text.Utf8

variable {p : Partial} {b : UInt8} {c : Char} {bs : Bytes} {position : Nat}

/-- Reading goes on from the state that the octets before have left. -/
theorem run_append (position : Nat) (state : Option Partial) (done : List Char) (xs ys : Bytes) :
    run position state done (xs ++ ys) =
      match run position state done xs with
      | .error fault => .error fault
      | .ok (cs, left) => run (position + xs.length) left cs.reverse ys := by
  induction xs generalizing position state done with
  | nil => simp [run]
  | cons x xs ih =>
      have hlength : position + (x :: xs).length = position + 1 + xs.length := by
        rw [List.length_cons]
        omega
      rw [hlength, List.cons_append]
      cases state with
      | none =>
          simp only [run]
          cases begin position x with
          | emit c => exact ih ..
          | more p => exact ih ..
          | refuse => rfl
      | some p =>
          simp only [run]
          cases p.next x with
          | emit c => exact ih ..
          | more p => exact ih ..
          | refuse => rfl

/-! ### The end of a character -/

/-- The machine ends a character begun with some octets. -/
inductive Partial.Ends : Partial → Bytes → Char → Prop
  | last {p : Partial} {b : UInt8} {c : Char} (h : p.next b = .emit c) : Ends p [b] c
  | more {p q : Partial} {b : UInt8} {bs : Bytes} {c : Char} (h : p.next b = .more q)
      (hrest : Ends q bs c) : Ends p (b :: bs) c

/-- An octet that is not refused carries six bits of the code. -/
theorem Partial.exists_admits (hlow : 0x80 ≤ p.low) (hhigh : p.high ≤ 0xBF)
    (h : p.next b ≠ .refuse) : ∃ m, p.Admits m ∧ b = UInt8.ofNat (m + 128) := by
  have hrange : p.low ≤ b.toNat ∧ b.toNat ≤ p.high := by
    by_contra hnot
    exact h (by rw [next, if_neg hnot])
  refine ⟨b.toNat - 128, ⟨by omega, by omega, by omega⟩, ?_⟩
  rw [Nat.sub_add_cancel (by omega), UInt8.ofNat_toNat]

/-- What ends a character is its last octet where one is owed, and otherwise an octet in front of
what ends it then. -/
theorem Partial.Ends.cases_owed (h : p.Ends bs c) (hlow : 0x80 ≤ p.low) (hhigh : p.high ≤ 0xBF) :
    ∃ m rest, p.Admits m ∧ bs = UInt8.ofNat (m + 128) :: rest ∧
      if p.owed ≤ 1 then rest = [] ∧ c = Char.ofNat (64 * p.code + m)
      else Partial.Ends
        ⟨p.position, p.first, p.taken + 1, p.owed - 1, 64 * p.code + m, 0x80, 0xBF⟩ rest c := by
  cases h with
  | last hnext =>
      obtain ⟨m, hadmits, rfl⟩ := exists_admits hlow hhigh fun hrefuse =>
        Step.noConfusion (hnext.symm.trans hrefuse)
      rw [next_ofNat hadmits] at hnext
      refine ⟨m, [], hadmits, rfl, ?_⟩
      split at hnext
      next howed =>
        rw [if_pos howed]
        exact ⟨rfl, (Step.emit.inj hnext).symm⟩
      next => cases hnext
  | more hnext hrest =>
      obtain ⟨m, hadmits, rfl⟩ := exists_admits hlow hhigh fun hrefuse =>
        Step.noConfusion (hnext.symm.trans hrefuse)
      rw [next_ofNat hadmits] at hnext
      refine ⟨m, _, hadmits, rfl, ?_⟩
      split at hnext
      next => cases hnext
      next howed =>
        rw [if_neg howed, Step.more.inj hnext]
        exact hrest

theorem Partial.position_of_next {q : Partial} (h : p.next b = .more q) :
    q.position = p.position := by
  rw [next] at h
  dsimp only at h
  split_ifs at h
  obtain rfl := Step.more.inj h
  rfl

/-! ### The octets of a code -/

theorem utf8EncodeChar_ofNat {n : Nat} (h : n.isValidChar) :
    String.utf8EncodeChar (Char.ofNat n) =
      if n ≤ 0x7F then [UInt8.ofNat n]
      else if n ≤ 0x7FF then [UInt8.ofNat (n / 64 % 32 + 192), UInt8.ofNat (n % 64 + 128)]
      else if n ≤ 0xFFFF then
        [UInt8.ofNat (n / 4096 % 16 + 224), UInt8.ofNat (n / 64 % 64 + 128),
          UInt8.ofNat (n % 64 + 128)]
      else
        [UInt8.ofNat (n / 262144 % 8 + 240), UInt8.ofNat (n / 4096 % 64 + 128),
          UInt8.ofNat (n / 64 % 64 + 128), UInt8.ofNat (n % 64 + 128)] := by
  have hval : (Char.ofNat n).val.toNat = n := by
    rw [Char.ofNat, dif_pos h]
    rfl
  rw [String.utf8EncodeChar, hval]

/-- An octet leads a character of two, three or four octets. The range of the next one leaves out
what fewer octets can hold, surrogates and all above U+10FFFF. -/
inductive Partial.Led (p : Partial) (b : UInt8) : Prop
  | two (howed : p.owed = 1) (hcode : 2 ≤ p.code ∧ p.code < 32)
      (hoctet : b = UInt8.ofNat (p.code + 192))
  | three (howed : p.owed = 2) (hcode : p.code < 16) (hoctet : b = UInt8.ofNat (p.code + 224))
      (hfirst : p.code = 0 → 0xA0 ≤ p.low) (hsurrogate : p.code = 13 → p.high ≤ 0x9F)
  | four (howed : p.owed = 3) (hcode : p.code < 5) (hoctet : b = UInt8.ofNat (p.code + 240))
      (hfirst : p.code = 0 → 0x90 ≤ p.low) (hlast : p.code = 4 → p.high ≤ 0x8F)

/-- What an octet does between characters: it is one, or it leads one at its position. -/
def Step.Begins (position : Nat) (b : UInt8) : Step → Prop
  | .emit c => b.toNat < 0x80 ∧ c = Char.ofNat b.toNat
  | .more p => p.position = position ∧ 0x80 ≤ p.low ∧ p.high ≤ 0xBF ∧ p.Led b
  | .refuse => True

theorem begins_begin (position : Nat) (b : UInt8) : (begin position b).Begins position b := by
  have hoctet : ∀ n, b.toNat = n → b = UInt8.ofNat n := by
    rintro n rfl
    exact UInt8.ofNat_toNat.symm
  have hsame : ∀ base, base ≤ b.toNat → b = UInt8.ofNat (b.toNat - base + base) :=
    fun base hbase => hoctet _ (Nat.sub_add_cancel hbase).symm
  have hbelow : b.toNat < 256 := b.toNat_lt
  -- one case for each test of the machine, in its order
  simp only [begin]
  by_cases hone : b.toNat < 0x80
  · rw [if_pos hone]
    exact ⟨hone, rfl⟩
  rw [if_neg hone]
  by_cases hstray : b.toNat < 0xC2
  · rw [if_pos hstray]
    trivial
  rw [if_neg hstray]
  by_cases htwo : b.toNat < 0xE0
  · rw [if_pos htwo]
    exact ⟨rfl, Nat.le_refl _, Nat.le_refl _, .two rfl ⟨by dsimp only; omega, by dsimp only; omega⟩
      (hsame 192 (by omega))⟩
  rw [if_neg htwo]
  by_cases hshort : b.toNat = 0xE0
  · rw [if_pos hshort]
    exact ⟨rfl, by simp, Nat.le_refl _, .three rfl (by simp) (hoctet _ hshort)
      (fun _ => Nat.le_refl _) (by simp)⟩
  rw [if_neg hshort]
  by_cases hsurrogate : b.toNat = 0xED
  · rw [if_pos hsurrogate]
    exact ⟨rfl, Nat.le_refl _, by simp, .three rfl (by simp) (hoctet _ hsurrogate) (by simp)
      (fun _ => Nat.le_refl _)⟩
  rw [if_neg hsurrogate]
  by_cases hthree : b.toNat < 0xF0
  · rw [if_pos hthree]
    exact ⟨rfl, Nat.le_refl _, Nat.le_refl _, .three rfl (by dsimp only; omega)
      (hsame 224 (by omega)) (by dsimp only; omega) (by dsimp only; omega)⟩
  rw [if_neg hthree]
  by_cases hsmall : b.toNat = 0xF0
  · rw [if_pos hsmall]
    exact ⟨rfl, by simp, Nat.le_refl _, .four rfl (by simp) (hoctet _ hsmall)
      (fun _ => Nat.le_refl _) (by simp)⟩
  rw [if_neg hsmall]
  by_cases hfour : b.toNat < 0xF4
  · rw [if_pos hfour]
    exact ⟨rfl, Nat.le_refl _, Nat.le_refl _, .four rfl (by dsimp only; omega)
      (hsame 240 (by omega)) (by dsimp only; omega) (by dsimp only; omega)⟩
  rw [if_neg hfour]
  by_cases hlast : b.toNat = 0xF4
  · rw [if_pos hlast]
    exact ⟨rfl, Nat.le_refl _, by simp, .four rfl (by simp) (hoctet _ hlast) (by simp)
      (fun _ => Nat.le_refl _)⟩
  rw [if_neg hlast]
  trivial

theorem begin_eq_emit (h : begin position b = .emit c) : String.utf8EncodeChar c = [b] := by
  have hbegins := begins_begin position b
  rw [h] at hbegins
  obtain ⟨hone, rfl⟩ := hbegins
  rw [utf8EncodeChar_ofNat (by rw [Nat.isValidChar]; omega), if_pos (by omega), UInt8.ofNat_toNat]

theorem begin_eq_more (h : begin position b = .more p) :
    p.position = position ∧ 0x80 ≤ p.low ∧ p.high ≤ 0xBF ∧ p.Led b := by
  have hbegins := begins_begin position b
  rwa [h] at hbegins

/-- The character that octets end was written with them. -/
theorem utf8EncodeChar_of_ends (hbegin : begin position b = .more p) (h : p.Ends bs c) :
    String.utf8EncodeChar c = b :: bs := by
  obtain ⟨-, hlow, hhigh, hled⟩ := begin_eq_more hbegin
  obtain ⟨m, rest, ⟨hm, hmlow, hmhigh⟩, rfl, hsecond⟩ := h.cases_owed hlow hhigh
  cases hled with
  | two howed hcode hoctet =>
      rw [if_pos (by omega)] at hsecond
      obtain ⟨rfl, rfl⟩ := hsecond
      have hlead : (64 * p.code + m) / 64 % 32 = p.code := by omega
      have hlast : (64 * p.code + m) % 64 = m := by omega
      rw [utf8EncodeChar_ofNat (by rw [Nat.isValidChar]; omega), if_neg (by omega),
        if_pos (by omega), hlead, hlast, hoctet]
  | three howed hcode hoctet hfirst hsurrogate =>
      rw [if_neg (by omega)] at hsecond
      obtain ⟨k, rest, ⟨hk, -, -⟩, rfl, hthird⟩ := hsecond.cases_owed (by simp) (by simp)
      rw [if_pos (by dsimp only; omega)] at hthird
      obtain ⟨rfl, rfl⟩ := hthird
      dsimp only
      have hlead : (64 * (64 * p.code + m) + k) / 4096 % 16 = p.code := by omega
      have hmiddle : (64 * (64 * p.code + m) + k) / 64 % 64 = m := by omega
      have hlast : (64 * (64 * p.code + m) + k) % 64 = k := by omega
      rw [utf8EncodeChar_ofNat (by rw [Nat.isValidChar]; omega), if_neg (by omega),
        if_neg (by omega), if_pos (by omega), hlead, hmiddle, hlast, hoctet]
  | four howed hcode hoctet hfirst hlast =>
      rw [if_neg (by omega)] at hsecond
      obtain ⟨k, rest, ⟨hk, -, -⟩, rfl, hthird⟩ := hsecond.cases_owed (by simp) (by simp)
      rw [if_neg (by dsimp only; omega)] at hthird
      obtain ⟨i, rest, ⟨hi, -, -⟩, rfl, hfourth⟩ := hthird.cases_owed (by simp) (by simp)
      rw [if_pos (by dsimp only; omega)] at hfourth
      obtain ⟨rfl, rfl⟩ := hfourth
      dsimp only
      have hlead : (64 * (64 * (64 * p.code + m) + k) + i) / 262144 % 8 = p.code := by omega
      have hmiddle : (64 * (64 * (64 * p.code + m) + k) + i) / 4096 % 64 = m := by omega
      have hnext : (64 * (64 * (64 * p.code + m) + k) + i) / 64 % 64 = k := by omega
      have hend : (64 * (64 * (64 * p.code + m) + k) + i) % 64 = i := by omega
      rw [utf8EncodeChar_ofNat (by rw [Nat.isValidChar]; omega), if_neg (by omega),
        if_neg (by omega), if_neg (by omega), hlead, hmiddle, hnext, hend, hoctet]

/-! ### Texts -/

/-- A state at a position stands behind some octets: between characters behind none, and inside a
character behind those of the character so far. -/
def Behind (position : Nat) : Option Partial → Bytes → Prop
  | none, begun => begun = []
  | some p, begun => p.position + begun.length = position ∧
      ∀ bs c, p.Ends bs c → String.utf8EncodeChar c = begun ++ bs

theorem behind_none (position : Nat) : Behind position none [] := rfl

/-- The octets of a character that ends, or those that the next state stands behind. -/
def Step.Spells (position : Nat) (spelled : Bytes) : Step → Prop
  | .emit c => String.utf8EncodeChar c = spelled
  | .more p => Behind position (some p) spelled
  | .refuse => True

theorem spells_begin (position : Nat) (b : UInt8) :
    (begin position b).Spells (position + 1) [b] := by
  cases hbegin : begin position b with
  | emit c => exact begin_eq_emit hbegin
  | more q =>
      refine ⟨?_, fun bs c => utf8EncodeChar_of_ends hbegin⟩
      rw [(begin_eq_more hbegin).1, List.length_singleton]
  | refuse => trivial

theorem Behind.spells_next {p : Partial} (h : Behind position (some p) begun) (b : UInt8) :
    (p.next b).Spells (position + 1) (begun ++ [b]) := by
  obtain ⟨hposition, hends⟩ := h
  cases hnext : p.next b with
  | emit c => exact hends [b] c (.last hnext)
  | more q =>
      refine ⟨?_, fun bs c hrest => ?_⟩
      · rw [p.position_of_next hnext, List.length_append, List.length_singleton]
        omega
      · rw [hends (b :: bs) c (.more hnext hrest), List.append_assoc, List.singleton_append]
  | refuse => trivial

/-- What is read without a fault are the octets of the characters read, and behind them those that
the state left stands behind. -/
theorem exists_of_run_eq_ok {state left : Option Partial} {done cs : List Char} {begun : Bytes}
    (hstate : Behind position state begun) (h : run position state done bs = .ok (cs, left)) :
    ∃ ds tail, begun ++ bs = encode ds ++ tail ∧ cs = done.reverse ++ ds ∧
      Behind (position + bs.length) left tail := by
  -- each octet moves the state on, and with it the octets that the state stands behind
  induction bs generalizing position state done begun with
  | nil =>
      obtain ⟨rfl, rfl⟩ := Prod.mk.inj (Except.ok.inj h)
      exact ⟨[], begun, by simp [encode], by simp, hstate⟩
  | cons b bs ih =>
      have hlength : position + (b :: bs).length = position + 1 + bs.length := by
        rw [List.length_cons]
        omega
      have hemit {c : Char} (hc : String.utf8EncodeChar c = begun ++ [b])
          (hrun : run (position + 1) none (c :: done) bs = .ok (cs, left)) :
          ∃ ds tail, begun ++ b :: bs = encode ds ++ tail ∧ cs = done.reverse ++ ds ∧
            Behind (position + (b :: bs).length) left tail := by
        obtain ⟨ds, tail, hspelled, hread, hleft⟩ := ih (behind_none _) hrun
        refine ⟨c :: ds, tail, ?_, by simp [hread], hlength ▸ hleft⟩
        rw [List.nil_append] at hspelled
        rw [encode, List.flatMap_cons, ← encode, hc, List.append_assoc, List.append_assoc,
          ← hspelled, List.singleton_append]
      have hmore {q : Partial} (hq : Behind (position + 1) (some q) (begun ++ [b]))
          (hrun : run (position + 1) (some q) done bs = .ok (cs, left)) :
          ∃ ds tail, begun ++ b :: bs = encode ds ++ tail ∧ cs = done.reverse ++ ds ∧
            Behind (position + (b :: bs).length) left tail := by
        obtain ⟨ds, tail, hspelled, hread, hleft⟩ := ih hq hrun
        rw [List.append_assoc, List.singleton_append] at hspelled
        exact ⟨ds, tail, hspelled, hread, hlength ▸ hleft⟩
      cases state with
      | none =>
          obtain rfl : begun = [] := hstate
          have hstep := spells_begin position b
          simp only [run] at h
          cases hbegin : begin position b with
          | emit c =>
              rw [hbegin] at hstep
              exact hemit hstep (by simpa only [hbegin] using h)
          | more q =>
              rw [hbegin] at hstep
              exact hmore hstep (by simpa only [hbegin] using h)
          | refuse => simp [hbegin] at h
      | some p =>
          have hstep := hstate.spells_next b
          simp only [run] at h
          cases hnext : p.next b with
          | emit c =>
              rw [hnext] at hstep
              exact hemit hstep (by simpa only [hnext] using h)
          | more q =>
              rw [hnext] at hstep
              exact hmore hstep (by simpa only [hnext] using h)
          | refuse => simp [hnext] at h

/-- What is read to an end between characters are the octets of the characters read. -/
theorem run_eq_ok_iff {cs : List Char} : run 0 none [] bs = .ok (cs, none) ↔ bs = encode cs := by
  constructor
  · intro hrun
    obtain ⟨ds, tail, hspelled, rfl, rfl⟩ := exists_of_run_eq_ok (behind_none _) hrun
    simpa using hspelled
  · rintro rfl
    exact run_encode cs 0 []

/-- Exactly the octets of a text are read as that text. -/
theorem decode_eq_ok_iff {cs : List Char} : decode bs = .ok cs ↔ bs = encode cs := by
  rw [← run_eq_ok_iff, decode]
  cases run 0 none [] bs with
  | error fault => simp
  | ok result =>
      obtain ⟨ds, left⟩ := result
      cases left <;> simp

/-- Octets spell a text. -/
def Spells (bs : Bytes) : Prop := ∃ cs, bs = encode cs

theorem spells_iff_decode : Spells bs ↔ ∃ cs, decode bs = .ok cs :=
  exists_congr fun _ => decode_eq_ok_iff.symm

/-- Behind a text, what spells a text is what spells one together with it. -/
theorem spells_encode_append {cs : List Char} : Spells (encode cs ++ bs) ↔ Spells bs := by
  constructor
  · rintro ⟨ds, hds⟩
    have hrun := run_eq_ok_iff.mpr hds
    rw [run_append, run_encode] at hrun
    obtain ⟨es, tail, hspelled, -, rfl⟩ := exists_of_run_eq_ok (behind_none _) hrun
    exact ⟨es, by simpa using hspelled⟩
  · rintro ⟨ds, rfl⟩
    exact ⟨cs ++ ds, by rw [encode, encode, encode, List.flatMap_append]⟩

/-- What has a fault spells no text, whatever follows it. -/
theorem not_spells_append {fault : Fault} (h : run 0 none [] bs = .error fault) (rest : Bytes) :
    ¬ Spells (bs ++ rest) := by
  rintro ⟨cs, hcs⟩
  have hrun := run_eq_ok_iff.mpr hcs
  rw [run_append, h] at hrun
  cases hrun

end ArchiveExport.Text.Utf8
