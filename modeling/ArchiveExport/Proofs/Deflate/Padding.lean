import ArchiveExport.Deflate.Inflate
import Mathlib.Data.List.Basic

/-!
# Octets behind the end of a stream

Reading a stream never looks behind its end: whatever a reader takes from some bits, it takes from
the same bits with whole octets behind them, and leaves these octets untouched. So a zlib stream
inflates to the same data with or without padding.
-/

namespace ArchiveExport.Deflate

variable {α β : Type}

theorem bind_eq_ok_iff {x : Except Fault α} {f : α → Except Fault β} {b : β} :
    x >>= f = .ok b ↔ ∃ a, x = .ok a ∧ f a = .ok b := by
  cases x with
  | error fault => simp [bind, Except.bind]
  | ok a => simp [bind, Except.bind]

/-- A reader takes the same from bits with whole octets behind them. -/
def Steady (read : List Bool → Except Fault (α × List Bool)) : Prop :=
  ∀ bits extra x rest, extra.length % 8 = 0 → read bits = .ok (x, rest) →
    read (bits ++ extra) = .ok (x, rest ++ extra)

/-! ### Single fields -/

theorem steady_take (n : Nat) : Steady (take n) := by
  intro bits extra x rest _ h
  simp only [take] at h ⊢
  split at h
  next hlt => simp at h
  next hle =>
    have hn : n ≤ bits.length := by
      rw [List.length_take] at hle
      omega
    simp only [Except.ok.injEq, Prod.mk.injEq] at h
    obtain ⟨rfl, rfl⟩ := h
    rw [List.take_append_of_le_length hn, List.drop_append_of_le_length hn, if_neg hle]

theorem align_append (bits : List Bool) {extra : List Bool} (hextra : extra.length % 8 = 0) :
    align (bits ++ extra) = align bits ++ extra := by
  have hmod : (bits ++ extra).length % 8 = bits.length % 8 := by
    rw [List.length_append]
    omega
  rw [align, align, hmod, List.drop_append_of_le_length (Nat.mod_le _ _)]

theorem steady_takeOctets (n : Nat) (out : Array UInt8) :
    Steady fun bits => takeOctets n bits out := by
  intro bits extra x rest hextra h
  induction n generalizing bits out with
  | zero =>
      simp only [takeOctets, Except.ok.injEq, Prod.mk.injEq] at h ⊢
      obtain ⟨rfl, rfl⟩ := h
      exact ⟨rfl, rfl⟩
  | succ n ih =>
      simp only [takeOctets] at h ⊢
      cases hoctet : take 8 bits with
      | error fault => simp [hoctet] at h
      | ok field =>
          obtain ⟨octet, bits'⟩ := field
          rw [hoctet] at h
          rw [steady_take 8 bits extra octet bits' hextra hoctet]
          exact ih _ _ h

/-! ### Words of prefix codes -/

theorem readFrom_append {symbols : Array Nat} {counts : List Nat} {code first index s : Nat}
    {bits rest : List Bool} (extra : List Bool)
    (h : Code.readFrom symbols counts code first index bits = .symbol s rest) :
    Code.readFrom symbols counts code first index (bits ++ extra) =
      .symbol s (rest ++ extra) := by
  induction counts generalizing code first index bits with
  | nil => simp [Code.readFrom] at h
  | cons count counts ih =>
      cases bits with
      | nil => simp [Code.readFrom] at h
      | cons bit bits =>
          simp only [Code.readFrom, List.cons_append] at h ⊢
          by_cases hword : code + (if bit then 1 else 0) < first + count
          · rw [if_pos hword] at h ⊢
            cases hsymbol : symbols[index + (code + (if bit then 1 else 0) - first)]? with
            | none => simp [hsymbol] at h
            | some symbol =>
                simp only [hsymbol, Code.Outcome.symbol.injEq] at h
                rw [h.1, h.2]
          · rw [if_neg hword] at h ⊢
            exact ih h

theorem read_append {code : Code} {s : Nat} {bits rest : List Bool} (extra : List Bool)
    (h : code.read bits = .symbol s rest) :
    code.read (bits ++ extra) = .symbol s (rest ++ extra) := by
  simp only [Code.read] at h ⊢
  split at h
  next hsize =>
    rw [if_pos hsize]
    cases bits with
    | nil => simp at h
    | cons bit bits =>
        simp only [List.cons_append] at h ⊢
        cases hsymbol : code.symbols[0]? with
        | none => simp [hsymbol] at h
        | some symbol =>
            cases bit with
            | true => simp [hsymbol] at h
            | false =>
                simp only [hsymbol, Bool.false_eq_true, if_false, Code.Outcome.symbol.injEq] at h ⊢
                exact ⟨h.1, by rw [h.2]⟩
  next hsize =>
    rw [if_neg hsize]
    exact readFrom_append extra h

theorem readLengthSymbol_append {code : Code} {s : Nat} {bits rest : List Bool}
    (extra : List Bool) (h : readLengthSymbol code bits = .symbol s rest) :
    readLengthSymbol code (bits ++ extra) = .symbol s (rest ++ extra) := by
  simp only [readLengthSymbol] at h ⊢
  split at h
  next hempty =>
    rw [if_pos hempty]
    cases bits with
    | nil => simp at h
    | cons bit bits =>
        simp only [List.cons_append, Code.Outcome.symbol.injEq] at h ⊢
        exact ⟨h.1, by rw [h.2]⟩
  next hwords =>
    rw [if_neg hwords]
    exact read_append extra h

/-! ### Coded blocks -/

theorem steady_readCopy (distances : Code) (length : Nat) (out : Array UInt8) :
    Steady fun bits => readCopy distances length bits out := by
  intro bits extra x rest hextra h
  simp only [readCopy] at h ⊢
  cases hword : distances.read bits with
  | endOfBits => simp [hword] at h
  | unknown => simp [hword] at h
  | symbol s bits' =>
      simp only [hword] at h
      simp only [read_append extra hword]
      cases hentry : distanceTable[s]? with
      | none => simp [hentry] at h
      | some entry =>
          obtain ⟨base, more⟩ := entry
          simp only [hentry] at h ⊢
          cases hmore : take more bits' with
          | error fault => simp [hmore] at h
          | ok field =>
              obtain ⟨further, bits''⟩ := field
              simp only [hmore] at h
              simp only [steady_take more bits' extra further bits'' hextra hmore]
              split at h
              next hfar => simp at h
              next hnear =>
                simp only [Except.ok.injEq, Prod.mk.injEq] at h
                rw [if_neg hnear, h.1, h.2]

theorem steady_readSymbolCopy (distances : Code) (s : Nat) (out : Array UInt8) :
    Steady fun bits => readSymbolCopy distances s bits out := by
  intro bits extra x rest hextra h
  simp only [readSymbolCopy] at h ⊢
  cases hentry : lengthTable[s - 257]? with
  | none => simp [hentry] at h
  | some entry =>
      obtain ⟨base, more⟩ := entry
      simp only [hentry] at h ⊢
      cases hmore : take more bits with
      | error fault => simp [hmore] at h
      | ok field =>
          obtain ⟨further, bits'⟩ := field
          simp only [hmore] at h
          simp only [steady_take more bits extra further bits' hextra hmore]
          exact steady_readCopy distances _ out bits' extra x rest hextra h

/-- More symbols than a block has may be allowed for. -/
theorem readSymbols_append {literals distances : Code} {fuel fuel' : Nat} {bits extra : List Bool}
    {out x : Array UInt8} {rest : List Bool} (hextra : extra.length % 8 = 0) (hfuel : fuel ≤ fuel')
    (h : readSymbols literals distances fuel bits out = .ok (x, rest)) :
    readSymbols literals distances fuel' (bits ++ extra) out = .ok (x, rest ++ extra) := by
  induction fuel generalizing fuel' bits out with
  | zero => simp [readSymbols] at h
  | succ fuel ih =>
      obtain ⟨fuel', rfl⟩ : ∃ n, fuel' = n + 1 := ⟨fuel' - 1, by omega⟩
      have hfuel' : fuel ≤ fuel' := by omega
      simp only [readSymbols] at h ⊢
      cases hword : literals.read bits with
      | endOfBits => simp [hword] at h
      | unknown => simp [hword] at h
      | symbol s bits' =>
          simp only [hword] at h
          simp only [read_append extra hword]
          by_cases hliteral : s < 256
          · rw [if_pos hliteral] at h ⊢
            exact ih hfuel' h
          rw [if_neg hliteral] at h ⊢
          by_cases hend : s = 256
          · rw [if_pos hend] at h ⊢
            simp only [Except.ok.injEq, Prod.mk.injEq] at h
            rw [h.1, h.2]
          rw [if_neg hend] at h ⊢
          cases hcopy : readSymbolCopy distances s bits' out with
          | error fault => simp [hcopy] at h
          | ok copied =>
              obtain ⟨out', bits''⟩ := copied
              simp only [hcopy] at h
              simp only [steady_readSymbolCopy distances s out bits' extra out' bits'' hextra hcopy]
              exact ih hfuel' h

/-! ### Descriptions of codes -/

theorem steady_readTriples (n : Nat) : Steady (readTriples n) := by
  intro bits extra x rest hextra h
  induction n generalizing bits x with
  | zero =>
      simp only [readTriples, Except.ok.injEq, Prod.mk.injEq] at h ⊢
      exact ⟨h.1, by rw [h.2]⟩
  | succ n ih =>
      simp only [readTriples] at h ⊢
      cases hfirst : take 3 bits with
      | error fault => simp [hfirst] at h
      | ok field =>
          obtain ⟨first, bits'⟩ := field
          simp only [hfirst] at h
          simp only [steady_take 3 bits extra first bits' hextra hfirst]
          cases hothers : readTriples n bits' with
          | error fault => simp [hothers] at h
          | ok others =>
              obtain ⟨xs, bits''⟩ := others
              simp only [hothers, Except.ok.injEq, Prod.mk.injEq] at h
              obtain ⟨rfl, rfl⟩ := h
              simp only [ih bits' xs hothers]

theorem steady_repeatLength (total value base more : Nat) (done : List Nat) :
    Steady (repeatLength total value base more done) := by
  intro bits extra x rest hextra h
  simp only [repeatLength] at h ⊢
  cases hmore : take more bits with
  | error fault => simp [hmore] at h
  | ok field =>
      obtain ⟨further, bits'⟩ := field
      simp only [hmore] at h
      simp only [steady_take more bits extra further bits' hextra hmore]
      split at h
      next hlong => simp at h
      next hfits =>
        simp only [Except.ok.injEq, Prod.mk.injEq] at h
        rw [if_neg hfits, h.1, h.2]

theorem steady_addLengths (total s : Nat) (done : List Nat) : Steady (addLengths total s done) := by
  intro bits extra x rest hextra h
  simp only [addLengths] at h ⊢
  by_cases hlength : s < 16
  · rw [if_pos hlength] at h ⊢
    simp only [Except.ok.injEq, Prod.mk.injEq] at h
    rw [h.1, h.2]
  rw [if_neg hlength] at h ⊢
  by_cases hlast : s = 16
  · rw [if_pos hlast] at h ⊢
    cases done with
    | nil => cases htwo : take 2 bits <;> simp [htwo] at h
    | cons last done => exact steady_repeatLength _ _ _ _ _ bits extra x rest hextra h
  rw [if_neg hlast] at h ⊢
  by_cases hzeros : s = 17
  · rw [if_pos hzeros] at h ⊢
    exact steady_repeatLength _ _ _ _ _ bits extra x rest hextra h
  · rw [if_neg hzeros] at h ⊢
    exact steady_repeatLength _ _ _ _ _ bits extra x rest hextra h

theorem readLengths_append {code : Code} {total fuel fuel' : Nat} {done x : List Nat}
    {bits extra rest : List Bool} (hextra : extra.length % 8 = 0) (hfuel : fuel ≤ fuel')
    (h : readLengths code total fuel done bits = .ok (x, rest)) :
    readLengths code total fuel' done (bits ++ extra) = .ok (x, rest ++ extra) := by
  induction fuel generalizing fuel' bits done with
  | zero => simp [readLengths] at h
  | succ fuel ih =>
      obtain ⟨fuel', rfl⟩ : ∃ n, fuel' = n + 1 := ⟨fuel' - 1, by omega⟩
      simp only [readLengths] at h ⊢
      by_cases hall : total ≤ done.length
      · rw [if_pos hall] at h ⊢
        simp only [Except.ok.injEq, Prod.mk.injEq] at h
        rw [h.1, h.2]
      rw [if_neg hall] at h ⊢
      cases hword : readLengthSymbol code bits with
      | endOfBits => simp [hword] at h
      | unknown => simp [hword] at h
      | symbol s bits' =>
          simp only [hword] at h
          simp only [readLengthSymbol_append extra hword]
          cases hadded : addLengths total s done bits' with
          | error fault => simp [hadded] at h
          | ok added =>
              obtain ⟨done', bits''⟩ := added
              simp only [hadded] at h
              simp only [steady_addLengths total s done bits' extra done' bits'' hextra hadded]
              exact ih (by omega) h

theorem readCodes_append {literals distances : Code} {bits extra rest : List Bool}
    (hextra : extra.length % 8 = 0) (h : readCodes bits = .ok (literals, distances, rest)) :
    readCodes (bits ++ extra) = .ok (literals, distances, rest ++ extra) := by
  simp only [readCodes, bind_eq_ok_iff, Prod.exists] at h ⊢
  obtain ⟨header, bits₁, hheader, u, hfew, stored, bits₂, hstored, h⟩ := h
  refine ⟨header, bits₁ ++ extra, steady_take 14 bits extra header bits₁ hextra hheader, u, hfew,
    stored, bits₂ ++ extra, steady_readTriples _ bits₁ extra stored bits₂ hextra hstored, ?_⟩
  obtain ⟨v, husable, lengths, bits₃, hlengths, w, hend, w', hliterals, w'', hdistances, h⟩ := h
  have hfuel : bits₂.length + 1 ≤ (bits₂ ++ extra).length + 1 := by
    rw [List.length_append]
    omega
  refine ⟨v, husable, lengths, bits₃ ++ extra, readLengths_append hextra hfuel hlengths, w, hend,
    w', hliterals, w'', hdistances, ?_⟩
  simp only [pure, Except.pure, Except.ok.injEq, Prod.mk.injEq] at h ⊢
  exact ⟨h.1, h.2.1, by rw [h.2.2]⟩

/-! ### Blocks -/

theorem steady_readStored (out : Array UInt8) : Steady fun bits => readStored bits out := by
  intro bits extra x rest hextra h
  simp only [readStored, bind_eq_ok_iff, Prod.exists] at h ⊢
  obtain ⟨lengths, bits₁, hlengths, u, hagree, h⟩ := h
  rw [align_append bits hextra]
  exact ⟨lengths, bits₁ ++ extra, steady_take 32 _ extra lengths bits₁ hextra hlengths, u, hagree,
    steady_takeOctets _ out bits₁ extra x rest hextra h⟩

theorem steady_readBlock (type : Nat) (out : Array UInt8) :
    Steady fun bits => readBlock type bits out := by
  intro bits extra x rest hextra h
  have hfuel : ∀ bits : List Bool, bits.length + 1 ≤ (bits ++ extra).length + 1 := by
    intro bits
    rw [List.length_append]
    omega
  rcases type with _ | _ | _ | type
  · exact steady_readStored out bits extra x rest hextra h
  · exact readSymbols_append hextra (hfuel bits) h
  · simp only [readBlock, bind_eq_ok_iff, Prod.exists] at h ⊢
    obtain ⟨literals, distances, bits₁, hcodes, h⟩ := h
    exact ⟨literals, distances, bits₁ ++ extra, readCodes_append hextra hcodes,
      readSymbols_append hextra (hfuel bits₁) h⟩
  · simp [readBlock] at h

/-- More blocks than a stream has may be allowed for. -/
theorem readBlocks_append {fuel fuel' : Nat} {bits extra rest : List Bool} {out x : Array UInt8}
    (hextra : extra.length % 8 = 0) (hfuel : fuel ≤ fuel')
    (h : readBlocks fuel bits out = .ok (x, rest)) :
    readBlocks fuel' (bits ++ extra) out = .ok (x, rest ++ extra) := by
  induction fuel generalizing fuel' bits out with
  | zero => simp [readBlocks] at h
  | succ fuel ih =>
      obtain ⟨fuel', rfl⟩ : ∃ n, fuel' = n + 1 := ⟨fuel' - 1, by omega⟩
      simp only [readBlocks, bind_eq_ok_iff, Prod.exists] at h ⊢
      obtain ⟨header, bits₁, hheader, out', bits₂, hblock, h⟩ := h
      refine ⟨header, bits₁ ++ extra, steady_take 3 bits extra header bits₁ hextra hheader, out',
        bits₂ ++ extra, steady_readBlock _ out bits₁ extra out' bits₂ hextra hblock, ?_⟩
      by_cases hlast : header % 2 = 1
      · rw [if_pos hlast] at h ⊢
        simp only [pure, Except.pure, Except.ok.injEq, Prod.mk.injEq] at h ⊢
        exact ⟨h.1, by rw [h.2]⟩
      · rw [if_neg hlast] at h ⊢
        exact ih (by omega) h

theorem inflateBits_append {bits extra rest : List Bool} {data : Bytes}
    (hextra : extra.length % 8 = 0) (h : inflateBits bits = .ok (data, rest)) :
    inflateBits (bits ++ extra) = .ok (data, rest ++ extra) := by
  simp only [inflateBits, bind_eq_ok_iff, Prod.exists] at h ⊢
  obtain ⟨out, rest', hblocks, h⟩ := h
  have hfuel : bits.length + 1 ≤ (bits ++ extra).length + 1 := by
    rw [List.length_append]
    omega
  refine ⟨out, rest' ++ extra, readBlocks_append hextra hfuel hblocks, ?_⟩
  simp only [pure, Except.pure, Except.ok.injEq, Prod.mk.injEq] at h ⊢
  exact ⟨h.1, by rw [h.2]⟩

/-! ### Streams -/

theorem length_flatMap_bitsOf (bs : Bytes) : (bs.flatMap bitsOf).length = 8 * bs.length := by
  induction bs with
  | nil => rfl
  | cons b bs ih =>
      have hb : (bitsOf b).length = 8 := by simp [bitsOf]
      rw [List.flatMap_cons, List.length_append, hb, ih, List.length_cons]
      omega

/-- Octets behind the end of a zlib stream change nothing. -/
theorem inflateZlib_append {bs data : Bytes} (padding : Bytes) (h : inflateZlib bs = .ok data) :
    inflateZlib (bs ++ padding) = .ok data := by
  match bs with
  | [] => simp [inflateZlib, throw, throwThe, MonadExceptOf.throw] at h
  | [_] => simp [inflateZlib, throw, throwThe, MonadExceptOf.throw] at h
  | method :: flags :: body =>
      have hextra : (padding.flatMap bitsOf).length % 8 = 0 := by
        rw [length_flatMap_bitsOf]
        omega
      rw [List.cons_append, List.cons_append]
      simp only [inflateZlib, bind_eq_ok_iff, Prod.exists] at h ⊢
      obtain ⟨u, hcheck, v, hmethod, w, hwindow, u', hdictionary, data', rest, hdata, h⟩ := h
      refine ⟨u, hcheck, v, hmethod, w, hwindow, u', ?_, data', rest ++ padding.flatMap bitsOf,
        ?_, ?_⟩
      · cases hset : flags.toNat.testBit 5 with
        | false => rfl
        | true => simp [hset, require] at hdictionary
      · rw [List.flatMap_append]
        exact inflateBits_append hextra hdata
      · obtain ⟨sum, behind, hsum, h⟩ := h
        rw [align_append rest hextra]
        exact ⟨sum, _, steady_takeOctets 4 #[] _ _ sum behind hextra hsum, h⟩

end ArchiveExport.Deflate
