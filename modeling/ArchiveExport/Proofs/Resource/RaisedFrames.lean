import ArchiveExport.Proofs.Resource.Raised
import ArchiveExport.Proofs.Resource.SpriteOctets

/-!
# Accesses that may raise, in sprites and animations

Sprites are read at offsets below a bound, animations by reading on. Of what reading an action
raises everything is handled; the tables behind the actions are read without a handler.
-/

namespace ArchiveExport

open Raised hiding fault reading index record shape

variable {φ : Type} {bs : Bytes} {offset stop : Nat}

/-! ### What lies between an offset and a bound -/

/-- The octets from an offset up to a bound. -/
def window (bs : Bytes) (stop offset : Nat) : Bytes :=
  (bs.take stop).drop offset

theorem length_window (offset : Nat) (h : stop ≤ bs.length) :
    (window bs stop offset).length = stop - offset := by
  rw [window, List.length_drop, List.length_take, Nat.min_eq_left h]

theorem drop_window (n : Nat) :
    (window bs stop offset).drop n = window bs stop (offset + n) := by
  rw [window, window, List.drop_drop]

theorem take_window {n : Nat} (h : offset + n ≤ stop) :
    (window bs stop offset).take n = bs.slice offset n := by
  rw [window, Bytes.slice, List.drop_take, List.take_take, Nat.min_eq_left (by omega)]

/-- As much as is left in front of the bound, and no more than is asked for. -/
theorem slice_min (n : Nat) :
    bs.slice offset (min n (stop - offset)) = (window bs stop offset).take n := by
  rw [window, Bytes.slice, List.drop_take, List.take_take]

theorem window_min (n : Nat) (h : stop ≤ bs.length) :
    window bs stop (offset + min n (stop - offset)) = (window bs stop offset).drop n := by
  rw [drop_window]
  by_cases hn : n ≤ stop - offset
  · rw [Nat.min_eq_left hn]
  · have hend (k : Nat) (hk : stop ≤ k) : window bs stop k = [] :=
      List.length_eq_zero_iff.mp (by rw [length_window k h]; omega)
    rw [hend _ (by omega), hend _ (by omega)]

theorem recordAt_window {α : Type} (layout : Layout α) (hstop : stop ≤ bs.length)
    (h : offset + layout.width ≤ stop) :
    recordAt layout bs offset =
      (.ok (layout.decode ((window bs stop offset).take layout.width)) : Except (Raised φ) α) := by
  rw [recordAt_of_le layout (Nat.le_trans h hstop), take_window h]

theorem toNat_uint16 (a b : UInt8) : (Layout.uint16.decode [a, b]).toNat = Bytes.toNat [a, b] := by
  have ha := a.toNat_lt
  have hb := b.toNat_lt
  refine UInt16.toNat_ofNat_of_lt' ?_
  simp only [Bytes.toNat, UInt16.size]
  omega

/-! ### Runs of zeros -/

namespace RunLength

/-- Expand from a position on until the end or the limit is reached. -/
def expandRaising (encoded : Bytes) (limit position : Nat) (out : Bytes) :
    Except (Raised φ) Bytes :=
  if h : position < encoded.length ∧ out.length < limit then do
    let value ← octetAt encoded position
    if value = 0 ∧ position + 1 < encoded.length then do
      let count ← octetAt encoded (position + 1)
      expandRaising encoded limit (position + 2) (out ++ List.replicate count.toNat 0)
    else
      expandRaising encoded limit (position + 1) (out ++ [value])
  else
    return out
termination_by encoded.length - position

theorem expandRaising_eq (encoded : Bytes) (limit position : Nat) (out : Bytes) :
    expandRaising encoded limit position out =
      (.ok (expandOnto limit out.length out.reverse (encoded.drop position)) :
        Except (Raised φ) Bytes) := by
  induction position, out using expandRaising.induct encoded limit with
  | case1 position out h ihrun ihplain =>
      obtain ⟨hposition, hlimit⟩ := h
      rw [expandRaising, dif_pos ⟨hposition, hlimit⟩, octetAt_of_lt hposition,
        List.drop_eq_getElem_cons hposition]
      simp only [bind, Except.bind]
      by_cases hrun : encoded[position] = 0 ∧ position + 1 < encoded.length
      · rw [if_pos hrun, octetAt_of_lt hrun.2, List.drop_eq_getElem_cons hrun.2, expandOnto,
          if_neg (Nat.not_le.mpr hlimit), if_pos hrun.1]
        simp only [ihrun _ hrun, List.length_append, List.length_replicate, List.reverse_append,
          List.reverse_replicate]
      · rw [if_neg hrun, ihplain]
        cases hrest : encoded.drop (position + 1) with
        | nil => simp [expandOnto, Nat.not_le.mpr hlimit]
        | cons count rest =>
            have hmore : position + 1 < encoded.length := by
              have := congrArg List.length hrest
              rw [List.length_drop, List.length_cons] at this
              omega
            have hvalue : encoded[position] ≠ 0 := fun hzero => hrun ⟨hzero, hmore⟩
            rw [expandOnto, if_neg (Nat.not_le.mpr hlimit), if_neg hvalue]
            simp
  | case2 position out h =>
      rw [expandRaising, dif_neg h]
      by_cases hposition : position < encoded.length
      · have hfull : limit ≤ out.length := by omega
        cases hrest : encoded.drop position with
        | nil => simp [expandOnto, pure, Except.pure]
        | cons b rest =>
            cases rest with
            | nil => simp [expandOnto, hfull, pure, Except.pure]
            | cons count rest => simp [expandOnto, hfull, pure, Except.pure]
      · rw [List.drop_eq_nil_of_le (by omega)]
        simp [expandOnto, pure, Except.pure]

/-- Expand all of it, cut or filled up to so many octets. -/
def decompressRaising (encoded : Bytes) (size : Nat) : Except (Raised φ) Bytes := do
  return (← expandRaising encoded size 0 []).fit size

theorem decompressRaising_eq (encoded : Bytes) (size : Nat) :
    decompressRaising encoded size = (.ok (decompress encoded size) : Except (Raised φ) Bytes) := by
  rw [decompressRaising, expandRaising_eq]
  rfl

end RunLength

/-! ### Sprites -/

namespace Sprite

variable {kind : FrameKind} {shortened : Bool}

/-- The body of a frame at an offset, and the offset behind it. -/
def readBodyRaising (kind : FrameKind) (shortened : Bool) (pixels : Nat) (bs : Bytes)
    (stop offset : Nat) : Except (Raised φ) (Option (Bytes × Nat)) :=
  if shortened then
    if stop < offset + 2 then return none
    else do
      let stored ← recordAt Layout.uint16 bs offset
      let size := min stored.toNat (stop - (offset + 2))
      let data ← RunLength.decompressRaising (bs.slice (offset + 2) size) pixels
      return some (data, offset + 2 + size)
  else
    let size := min (pixels * kind.pixelSize) (stop - offset)
    return some (bs.slice offset size, offset + size)

/-- Read so many frames from an offset on, with the offset behind them. -/
def readFramesRaising (kind : FrameKind) (shortened : Bool) (bs : Bytes) (stop : Nat) :
    Nat → Nat → Except (Raised φ) (List SpriteFrame × Nat)
  | 0, offset => return ([], offset)
  | count + 1, offset =>
    if stop < offset + 4 then return ([], offset)
    else do
      let sides ← recordAt (Layout.uint16.pair Layout.uint16) bs offset
      let width := sides.1.toNat
      let height := sides.2.toNat
      if width = 0 ∨ height = 0 then do
        let more ← readFramesRaising kind shortened bs stop count (offset + 4)
        return (⟨width, height, kind, []⟩ :: more.1, more.2)
      else do
        match ← readBodyRaising kind shortened (width * height) bs stop (offset + 4) with
        | none => return ([⟨width, height, kind, []⟩], offset + 4)
        | some (data, offset) => do
          let more ← readFramesRaising kind shortened bs stop count offset
          return (⟨width, height, kind, data⟩ :: more.1, more.2)

theorem readBodyRaising_eq (kind : FrameKind) (shortened : Bool) (pixels offset : Nat)
    (hstop : stop ≤ bs.length) :
    (readBodyRaising kind shortened pixels bs stop offset : Except (Raised φ) _).map
        (·.map fun (data, behind) => (data, window bs stop behind)) =
      .ok (readBody kind shortened pixels (window bs stop offset)) := by
  cases shortened with
  | false =>
      simp only [readBodyRaising, readBody, Bool.false_eq_true, if_false, pure, Except.pure,
        Except.map, Option.map, slice_min, window_min _ hstop]
  | true =>
      simp only [readBodyRaising, readBody, if_true]
      by_cases hcut : stop < offset + 2
      · have hshort := length_window offset hstop
        rw [if_pos hcut]
        match hwindow : window bs stop offset with
        | [] => rfl
        | [_] => rfl
        | _ :: _ :: _ =>
          rw [hwindow, List.length_cons, List.length_cons] at hshort
          omega
      · have hlong := length_window offset hstop
        match hwindow : window bs stop offset with
        | [] | [_] =>
          simp [hwindow] at hlong
          omega
        | s0 :: s1 :: rest =>
          have hrest : window bs stop (offset + 2) = rest := by
            rw [← drop_window, hwindow]
            rfl
          have hsize : (recordAt Layout.uint16 bs offset : Except (Raised φ) _) =
              .ok (Layout.uint16.decode [s0, s1]) := by
            rw [recordAt_window Layout.uint16 hstop (by simp only [Layout.uint16]; omega), hwindow]
            rfl
          simp only [if_neg hcut, hsize, bind, Except.bind, toNat_uint16, slice_min, hrest,
            RunLength.decompressRaising_eq, pure, Except.pure, Except.map, Option.map,
            window_min _ hstop]

theorem readFrames_of_short {rest : Bytes} (h : rest.length < 4) (count index : Nat) :
    readFrames kind shortened (count + 1) index rest = ⟨[], rest, some index⟩ := by
  match rest with
  | [] | [_] | [_, _] | [_, _, _] => rfl
  | _ :: _ :: _ :: _ :: _ =>
    simp at h
    omega

theorem readFramesRaising_eq (kind : FrameKind) (shortened : Bool) (hstop : stop ≤ bs.length)
    (count index offset : Nat) :
    (readFramesRaising kind shortened bs stop count offset : Except (Raised φ) _).map
        (fun more => (more.1, window bs stop more.2)) =
      .ok ((readFrames kind shortened count index (window bs stop offset)).frames,
        (readFrames kind shortened count index (window bs stop offset)).rest) := by
  induction count generalizing index offset with
  | zero => rfl
  | succ count ih =>
      have hlength := length_window offset hstop
      by_cases hcut : stop < offset + 4
      · rw [readFramesRaising, if_pos hcut, readFrames_of_short (by omega)]
        rfl
      · match hwindow : window bs stop offset with
        | [] | [_] | [_, _] | [_, _, _] =>
          simp [hwindow] at hlength
          omega
        | w0 :: w1 :: h0 :: h1 :: rest =>
          have hrest : window bs stop (offset + 4) = rest := by
            rw [← drop_window, hwindow]
            rfl
          have hsides : (recordAt (Layout.uint16.pair Layout.uint16) bs offset :
              Except (Raised φ) _) =
                .ok (Layout.uint16.decode [w0, w1], Layout.uint16.decode [h0, h1]) := by
            rw [recordAt_window _ hstop (by simp only [Layout.pair, Layout.uint16]; omega), hwindow]
            rfl
          rw [readFramesRaising, if_neg hcut, hsides, readFrames]
          simp only [bind, Except.bind, toNat_uint16]
          by_cases hempty : Bytes.toNat [w0, w1] = 0 ∨ Bytes.toNat [h0, h1] = 0
          · obtain ⟨more, hmore, heq⟩ := exists_of_map_eq_ok (ih (index + 1) (offset + 4))
            rw [hrest, Prod.mk.injEq] at heq
            rw [if_pos hempty, if_pos hempty, hmore, FrameList.cons, ← heq.1, ← heq.2]
            rfl
          · obtain ⟨body, hbody, heq⟩ := exists_of_map_eq_ok (readBodyRaising_eq kind shortened
              (Bytes.toNat [w0, w1] * Bytes.toNat [h0, h1]) (offset + 4) hstop)
            rw [hrest] at heq
            rw [if_neg hempty, if_neg hempty, hbody, ← heq]
            cases body with
            | none => simp only [Option.map, pure, Except.pure, Except.map, hrest]
            | some body =>
                obtain ⟨more, hmore, heq⟩ := exists_of_map_eq_ok (ih (index + 1) body.2)
                rw [Prod.mk.injEq] at heq
                simp only [Option.map, hmore, FrameList.cons, ← heq.1, ← heq.2]
                rfl

/-- Read the header of a sprite file. -/
def decodeHeaderRaising (bs : Bytes) : Except (Raised Fault) Header :=
  if bs.length < 6 then throw (.fault .tooSmall)
  else if bs.take 2 ≠ [0x53, 0x50] then throw (.fault (.signature (bs.take 2)))
  else do
    let version : Version := ⟨(← octetAt bs 3).toNat, (← octetAt bs 2).toNat⟩
    if version.major < 1 ∨ 3 < version.major then throw (.fault (.version version))
    else do
      let header ←
        if version.atLeast 2 0 then
          if bs.length < 8 then throw (.fault .headerCut)
          else do
            let counts ← recordAt (Layout.uint16.pair Layout.uint16) bs 4
            pure ⟨version, counts.1.toNat, counts.2.toNat, 8⟩
        else do
          let count ← recordAt Layout.uint16 bs 4
          pure ⟨version, count.toNat, 0, 6⟩
      if maxFrames < max header.indexed header.rgba then
        throw (.fault (.frameCount header.indexed header.rgba))
      else
        return header

/-- Whether the last octets of a file are the palette. -/
def hasPalette (header : Header) (bs : Bytes) : Bool :=
  decide (header.indexed ≠ 0 ∧ header.size + Palette.size ≤ bs.length)

/-- Where the frames end at the latest. -/
def framesEnd (header : Header) (bs : Bytes) : Nat :=
  if hasPalette header bs then bs.length - Palette.size else bs.length

/-- The palette of a sprite; its own one has to be as many octets as a palette has. -/
def paletteRaising (header : Header) (bs : Bytes) : Except (Raised Fault) Palette :=
  if hasPalette header bs then
    let table := bs.drop (framesEnd header bs)
    if table.length = Palette.size then return .ofTable table Palette.opaqueBut0
    else throw (.shape table.length Palette.size)
  else
    return Palette.grey

/-- The sprite in a file. -/
def decodeRaising (bs : Bytes) : Except (Raised Fault) Sprite := do
  let header ← decodeHeaderRaising bs
  let stop := framesEnd header bs
  let palette ← paletteRaising header bs
  let indexed ← readFramesRaising .indexed (header.version.atLeast 2 1) bs stop header.indexed
    header.size
  let rgba ← readFramesRaising .rgba false bs stop header.rgba indexed.2
  if indexed.1.isEmpty && rgba.1.isEmpty then throw (.fault .noFrames)
  else return ⟨header.version, indexed.1, rgba.1, palette⟩

theorem decodeHeaderRaising_eq (bs : Bytes) :
    decodeHeaderRaising bs = (decodeHeader bs).mapError .fault := by
  match bs with
  | [] | [_] | [_, _] | [_, _, _] | [_, _, _, _] | [_, _, _, _, _] => rfl
  | s0 :: s1 :: minor :: major :: i0 :: i1 :: rest =>
    have hlong : ¬ (s0 :: s1 :: minor :: major :: i0 :: i1 :: rest).length < 6 := by
      simp
    have hmajor : (octetAt (s0 :: s1 :: minor :: major :: i0 :: i1 :: rest) 3 :
        Except (Raised Fault) UInt8) = .ok major := rfl
    have hminor : (octetAt (s0 :: s1 :: minor :: major :: i0 :: i1 :: rest) 2 :
        Except (Raised Fault) UInt8) = .ok minor := rfl
    have hcount : (recordAt Layout.uint16 (s0 :: s1 :: minor :: major :: i0 :: i1 :: rest) 4 :
        Except (Raised Fault) _) = .ok (Layout.uint16.decode [i0, i1]) :=
      recordAt_of_le _ (by simp [Layout.uint16])
    unfold decodeHeaderRaising decodeHeader
    simp only [if_neg hlong, hmajor, hminor, hcount, bind, Except.bind]
    by_cases hsignature : s0 ≠ 0x53 ∨ s1 ≠ 0x50
    · rw [if_pos hsignature, if_pos (by simpa [imp_iff_not_or] using hsignature)]
      rfl
    rw [if_neg hsignature, if_neg (by simpa [imp_iff_not_or] using hsignature)]
    by_cases hversion : major.toNat < 1 ∨ 3 < major.toNat
    · simp only [if_pos hversion]
      rfl
    simp only [if_neg hversion]
    by_cases hnew : (Version.mk major.toNat minor.toNat).atLeast 2 0 = true
    · simp only [if_pos hnew]
      obtain _ | ⟨r0, _ | ⟨r1, rest⟩⟩ := rest
      · rfl
      · rfl
      · have hcounts : (recordAt (Layout.uint16.pair Layout.uint16)
            (s0 :: s1 :: minor :: major :: i0 :: i1 :: r0 :: r1 :: rest) 4 :
              Except (Raised Fault) _) =
            .ok (Layout.uint16.decode [i0, i1], Layout.uint16.decode [r0, r1]) :=
          recordAt_of_le _ (by simp [Layout.pair, Layout.uint16])
        have hlonger :
            ¬ (s0 :: s1 :: minor :: major :: i0 :: i1 :: r0 :: r1 :: rest).length < 8 := by
          simp
        simp only [if_neg hlonger, hcounts, toNat_uint16, pure, Except.pure]
        split <;> rfl
    · simp only [if_neg hnew, toNat_uint16, pure, Except.pure]
      split <;> rfl

theorem framesEnd_le (header : Header) (bs : Bytes) : framesEnd header bs ≤ bs.length := by
  unfold framesEnd
  split <;> omega

/-- The frames and the palette lie between the header and the end. -/
theorem splitPalette_eq {header : Header} (hsize : header.size ≤ bs.length) :
    splitPalette header (bs.drop header.size) =
      (window bs (framesEnd header bs) header.size,
        if hasPalette header bs then .ofTable (bs.drop (framesEnd header bs)) Palette.opaqueBut0
        else Palette.grey) := by
  have hroom : (header.indexed ≠ 0 ∧ Palette.size ≤ bs.length - header.size) ↔
      hasPalette header bs = true := by
    have hpalette : 0 < Palette.size := by decide
    rw [hasPalette, decide_eq_true_eq]
    refine and_congr_right fun _ => ?_
    omega
  simp only [splitPalette, List.length_drop, hroom, framesEnd]
  by_cases hstored : hasPalette header bs = true
  · rw [if_pos hstored, if_pos hstored, if_pos hstored, window, List.drop_take, List.drop_drop]
    have hle : header.size + Palette.size ≤ bs.length := (of_decide_eq_true hstored).2
    rw [show bs.length - header.size - Palette.size = bs.length - Palette.size - header.size by
      omega, show header.size + (bs.length - Palette.size - header.size) =
        bs.length - Palette.size by omega]
  · rw [if_neg hstored, if_neg hstored, if_neg hstored, window, List.take_length]

theorem paletteRaising_eq (header : Header) (bs : Bytes) :
    paletteRaising header bs =
      .ok (if hasPalette header bs
        then .ofTable (bs.drop (framesEnd header bs)) Palette.opaqueBut0 else Palette.grey) := by
  by_cases hstored : hasPalette header bs = true
  · have hle : header.size + Palette.size ≤ bs.length := (of_decide_eq_true hstored).2
    have hlength : (bs.drop (framesEnd header bs)).length = Palette.size := by
      rw [List.length_drop, framesEnd, if_pos hstored]
      omega
    rw [paletteRaising, if_pos hstored, if_pos hstored, if_pos hlength]
    rfl
  · rw [paletteRaising, if_neg hstored, if_neg hstored]
    rfl

theorem decodeRaising_eq (bs : Bytes) : decodeRaising bs = (decode bs).2.mapError .fault := by
  unfold decodeRaising decode
  rw [decodeHeaderRaising_eq]
  cases hheader : decodeHeader bs with
  | error fault => rfl
  | ok header =>
      have hstop := framesEnd_le header bs
      obtain ⟨indexed, hindexed, hindexedEq⟩ := exists_of_map_eq_ok
        (readFramesRaising_eq (φ := Fault) .indexed (header.version.atLeast 2 1) hstop
          header.indexed 0 header.size)
      obtain ⟨rgba, hrgba, hrgbaEq⟩ := exists_of_map_eq_ok
        (readFramesRaising_eq (φ := Fault) .rgba false hstop header.rgba 0 indexed.2)
      rw [Prod.mk.injEq] at hindexedEq hrgbaEq
      rw [hindexedEq.2] at hrgbaEq
      simp only [Except.mapError, bind, Except.bind, paletteRaising_eq, hindexed, hrgba,
        splitPalette_eq (heads_of_decodeHeader hheader).size_le, hindexedEq.1, hrgbaEq.1]
      split <;> rfl

end Sprite

/-! ### Reading on within the octets -/

namespace Reading

open Reader (behind)

variable {α β : Type} {read : Reading α} {next : α → Reading β}

/-- Reading on from a place within the octets ends at a place within them. -/
def Stays (read : Reading α) : Prop :=
  ∀ done bs a r, read (behind done bs) = .ok (a, r) → ∃ done' bs', r = behind done' bs'

theorem Stays.pure (a : α) : Stays (pure a) := by
  intro done bs b r h
  cases h
  exact ⟨done, bs, rfl⟩

theorem Stays.bind (hfirst : Stays read) (hnext : ∀ a, Stays (next a)) :
    Stays (read >>= next) := by
  intro done bs b r h
  cases hread : read (behind done bs) with
  | error fault =>
      rw [bind_of_error hread] at h
      cases h
  | ok result =>
      obtain ⟨a, left⟩ := result
      rw [bind_of_ok hread] at h
      obtain ⟨done', bs', rfl⟩ := hfirst done bs a left hread
      exact hnext a done' bs' b r h

/-- A reader of fixed size stays within the octets. -/
theorem Takes.stays {n : Nat} (h : Takes read n) : Stays read := by
  intro done bs a r hread
  by_cases hshort : bs.length < n
  · obtain ⟨fault, hfault⟩ := h.short done bs hshort
    rw [hfault] at hread
    cases hread
  · obtain ⟨b, hb⟩ := h.enough (bs.take n) (by rw [List.length_take]; omega)
    have hwhole := hb done (bs.drop n)
    rw [List.take_append_drop, hread] at hwhole
    cases hwhole
    exact ⟨_, _, rfl⟩

theorem Takes.skip (n : Nat) : Takes (skip n) n where
  enough _ hbs := ⟨(), (Spells.skip (congrArg Int.ofNat hbs)).reads⟩
  short done bs h := by
    refine ⟨.skip n done.length, ?_⟩
    rw [Reading.skip, Reader.remaining_behind, if_pos (Int.ofNat_lt.mpr h)]
    rfl

theorem Stays.times (h : Stays read) (n : Nat) : Stays (times read n) := by
  induction n with
  | zero => exact .pure []
  | succ n ih => exact h.bind fun _ => ih.bind fun _ => .pure _

theorem Stays.timesWhile (h : Stays read) (width n : Nat) : Stays (timesWhile width read n) := by
  induction n with
  | zero => exact .pure []
  | succ n ih =>
      intro done bs a r hread
      rw [Reading.timesWhile, remaining_bind] at hread
      split at hread
      · exact Stays.pure [] done bs a r hread
      · exact (h.bind fun _ => ih.bind fun _ => .pure _) done bs a r hread

theorem Stays.ite {c : Prop} [Decidable c] {other : Reading α} (h : Stays read)
    (hother : Stays other) : Stays (if c then read else other) := by
  split
  · exact h
  · exact hother

end Reading

/-! ### Animations -/

namespace Animation

open Reading
open Reader (behind)

variable {version : Version}

theorem stays_readCount (limit : Nat) : Stays (readCount limit) :=
  (Takes.record Layout.int32).stays.bind fun _ => .ite (.pure _) fun _ _ _ _ h => nomatch h

/-- A record that only some versions have, in front of others. -/
theorem stays_record_or {α β : Type} (c : Prop) [Decidable c] (layout : Layout α) (d : α)
    {next : α → Reading β} (h : ∀ a, Stays (next a)) :
    Stays (if c then Reading.record layout >>= next else pure d >>= next) :=
  .ite ((Takes.record layout).stays.bind h) ((Stays.pure d).bind h)

theorem stays_readLayer (version : Version) : Stays (readLayer version) := by
  refine (Takes.record _).stays.bind fun _ => .ite (.pure _) ?_
  refine (Takes.record _).stays.bind fun _ => (Takes.record _).stays.bind fun _ => ?_
  refine stays_record_or _ _ _ fun _ => (Takes.record _).stays.bind fun _ => ?_
  exact stays_record_or _ _ _ fun _ => .pure _

theorem stays_readAnchors (version : Version) : Stays (readAnchors version) := by
  have hanchor : Stays readAnchor := (Takes.record _).stays.bind fun _ => .pure _
  intro done bs a r hread
  rw [readAnchors, remaining_bind] at hread
  exact Stays.ite (.pure []) ((Takes.record _).stays.bind fun _ => hanchor.timesWhile _ _)
    done bs a r hread

theorem stays_readAction (version : Version) : Stays (readAction version) := by
  have hframe : Stays (readFrame version) := by
    refine (Takes.skip 32).stays.bind fun _ => (stays_readCount _).bind fun _ => ?_
    refine ((stays_readLayer version).times _).bind fun _ => ?_
    exact stays_record_or _ _ _ fun _ => (stays_readAnchors version).bind fun _ => .pure _
  exact (stays_readCount _).bind fun _ => hframe.times _

/-- Read up to so many actions. What reading one raises is handled, and ends the list. -/
def readActionsRaising (version : Version) :
    Nat → Reader → Except (Raised Fault) (List Action × Reader)
  | 0, r => return ([], r)
  | count + 1, r =>
    if r.remaining ≤ 0 then return ([], r)
    else
      match (from? (readAction version) r : Except (Raised Fault) _) with
      | .ok (action, left) => do
        let more ← readActionsRaising version count left
        return (action :: more.1, more.2)
      | .error (.reading _) => return ([], r)
      | .error raised => throw raised

/-- Read so many names, but none where less than a name is left. -/
def readNamesRaising : Nat → Reader → Except (Raised Fault) (List String × Reader)
  | 0, r => return ([], r)
  | count + 1, r =>
    if r.remaining < eventSize then return ([], r)
    else do
      let first ← from? (Reading.name eventSize) r
      let more ← readNamesRaising count first.2
      return (first.1 :: more.1, more.2)

/-- The events behind the actions. -/
def readEventsRaising (version : Version) (r : Reader) :
    Except (Raised Fault) (List String × Reader) :=
  if version.atLeast 2 1 ∧ 4 ≤ r.remaining then do
    let count ← from? (Reading.record Layout.uint32) r
    readNamesRaising count.1.toNat count.2
  else
    return ([], r)

/-- The intervals from a table of speeds; nothing is read where less than a speed is left. -/
def readIntervalsRaising : Binary32 → List Action → Reader → Except (Raised Fault) (List Binary64)
  | _, [], _ => return []
  | speed, _ :: actions, r =>
    if 4 ≤ r.remaining then do
      let next ← from? (Reading.record Layout.float32) r
      let more ← readIntervalsRaising next.1 actions next.2
      return interval next.1 :: more
    else do
      let more ← readIntervalsRaising speed actions r
      return interval speed :: more

/-- The intervals of all actions. -/
def intervalsForRaising (version : Version) (actions : List Action) (r : Reader) :
    Except (Raised Fault) (List Binary64) :=
  if version.atLeast 2 2 && 0 < r.remaining then readIntervalsRaising .one actions r
  else return actions.map fun _ => standardInterval

/-- Read the signature, the version and the number of actions. -/
def decodeHeaderRaising (bs : Bytes) : Except (Raised Fault) (Version × Nat) :=
  if bs.length < headerSize then throw (.fault .tooSmall)
  else if bs.take 2 ≠ [0x41, 0x43] then throw (.fault (.signature (bs.take 2)))
  else do
    let version : Version := ⟨(← octetAt bs 3).toNat, (← octetAt bs 2).toNat⟩
    if version.major < 1 ∨ 3 < version.major then throw (.fault (.version version))
    else do
      let count ← recordAt Layout.uint16 bs 4
      if maxActions < count.toNat then throw (.fault (.actionCount count.toNat))
      else return (version, count.toNat)

/-- The animation in a file. -/
def decodeRaising (bs : Bytes) : Except (Raised Fault) Animation := do
  let header ← decodeHeaderRaising bs
  let actions ← readActionsRaising header.1 header.2 (Reader.ofBytes bs headerSize)
  if actions.1.isEmpty then throw (.fault .noActions)
  else do
    let events ← readEventsRaising header.1 actions.2
    let intervals ← intervalsForRaising header.1 actions.1 events.2
    return ⟨header.1, actions.1, events.1, intervals⟩

theorem decodeHeaderRaising_eq (bs : Bytes) :
    decodeHeaderRaising bs = (decodeHeader bs).mapError .fault := by
  match bs with
  | [] | [_] | [_, _] | [_, _, _] | [_, _, _, _] | [_, _, _, _, _] => rfl
  | s0 :: s1 :: minor :: major :: c0 :: c1 :: rest =>
    have hmajor : (octetAt (s0 :: s1 :: minor :: major :: c0 :: c1 :: rest) 3 :
        Except (Raised Fault) UInt8) = .ok major := rfl
    have hminor : (octetAt (s0 :: s1 :: minor :: major :: c0 :: c1 :: rest) 2 :
        Except (Raised Fault) UInt8) = .ok minor := rfl
    have hcount : (recordAt Layout.uint16 (s0 :: s1 :: minor :: major :: c0 :: c1 :: rest) 4 :
        Except (Raised Fault) _) = .ok (Layout.uint16.decode [c0, c1]) :=
      recordAt_of_le _ (by simp [Layout.uint16])
    have hlength : (s0 :: s1 :: minor :: major :: c0 :: c1 :: rest).length = rest.length + 6 := rfl
    unfold decodeHeaderRaising decodeHeader
    rw [hlength]
    by_cases hsmall : rest.length + 6 < headerSize
    · simp only [if_pos hsmall]
      rfl
    simp only [if_neg hsmall, hmajor, hminor, hcount, bind, Except.bind]
    by_cases hsignature : s0 ≠ 0x41 ∨ s1 ≠ 0x43
    · rw [if_pos hsignature, if_pos (by simpa [imp_iff_not_or] using hsignature)]
      rfl
    rw [if_neg hsignature, if_neg (by simpa [imp_iff_not_or] using hsignature)]
    by_cases hversion : major.toNat < 1 ∨ 3 < major.toNat
    · simp only [if_pos hversion]
      rfl
    simp only [if_neg hversion, toNat_uint16]
    split <;> rfl

theorem readActionsRaising_eq (version : Version) (count : Nat) (r : Reader) :
    readActionsRaising version count r = .ok (readActions version count r) := by
  induction count generalizing r with
  | zero => rfl
  | succ count ih =>
      rw [readActionsRaising, readActions]
      split
      · rfl
      · cases hread : readAction version r with
        | error fault => simp [from?, hread, Except.mapError, pure, Except.pure]
        | ok result =>
            obtain ⟨action, left⟩ := result
            simp [from?, hread, Except.mapError, ih, bind, Except.bind, pure, Except.pure]

/-- Where reading of actions ends is a place within the octets. -/
theorem stays_readActions (version : Version) (count : Nat) (done bs : Bytes) :
    ∃ done' bs', (readActions version count (behind done bs)).2 = behind done' bs' := by
  induction count generalizing done bs with
  | zero => exact ⟨done, bs, rfl⟩
  | succ count ih =>
      rw [readActions]
      split
      · exact ⟨done, bs, rfl⟩
      · cases hread : readAction version (behind done bs) with
        | error fault => exact ⟨done, bs, rfl⟩
        | ok result =>
            obtain ⟨action, left⟩ := result
            obtain ⟨done', bs', rfl⟩ := stays_readAction version done bs action left hread
            exact ih done' bs'

/-- Where there is room for a record, it is read and nothing else. -/
theorem exists_record_eq {α : Type} (layout : Layout α) {bs : Bytes}
    (h : layout.width ≤ bs.length) (done : Bytes) :
    ∃ a done' bs', Reading.record layout (behind done bs) = .ok (a, behind done' bs') := by
  obtain ⟨a, r, hread⟩ := exists_record_of_le layout h done
  obtain ⟨done', bs', rfl⟩ := (Takes.record layout).stays done bs a r hread
  exact ⟨a, done', bs', hread⟩

theorem readNamesRaising_eq (count : Nat) (done bs : Bytes) :
    ∃ result, readNamesRaising count (behind done bs) = .ok result ∧
      Reading.times (Reading.name eventSize) (min count (bs.length / eventSize))
        (behind done bs) = .ok result ∧
      ∃ done' bs', result.2 = behind done' bs' := by
  induction count generalizing done bs with
  | zero => exact ⟨([], behind done bs), rfl, by rw [Nat.zero_min]; rfl, done, bs, rfl⟩
  | succ count ih =>
      rw [readNamesRaising, Reader.remaining_behind]
      by_cases hshort : bs.length < eventSize
      · rw [if_pos (by exact_mod_cast hshort), Nat.div_eq_of_lt hshort, Nat.min_zero]
        exact ⟨([], behind done bs), rfl, rfl, done, bs, rfl⟩
      · have hname := name_append (bs.take eventSize) done (bs.drop eventSize)
        rw [List.take_append_drop, List.length_take, Nat.min_eq_left (by omega)] at hname
        obtain ⟨result, hraising, htimes, hleft⟩ :=
          ih (done ++ bs.take eventSize) (bs.drop eventSize)
        have hroom : min (count + 1) (bs.length / eventSize) =
            min count ((bs.drop eventSize).length / eventSize) + 1 := by
          have hdiv : bs.length / eventSize = (bs.length - eventSize) / eventSize + 1 :=
            Nat.div_eq_sub_div (by decide) (Nat.le_of_not_lt hshort)
          rw [List.length_drop, hdiv, Nat.add_min_add_right]
        refine ⟨(Reader.nameText (bs.take eventSize) :: result.1, result.2), ?_, ?_, hleft⟩
        · rw [if_neg (by exact_mod_cast hshort), from?_of_ok hname]
          simp only [bind, Except.bind, hraising]
          rfl
        · rw [hroom]
          exact (bind_of_ok hname).trans (bind_of_ok htimes)

theorem readEventsRaising_eq (version : Version) (done bs : Bytes) :
    readEventsRaising version (behind done bs) = .ok (readEvents version (behind done bs)) ∧
      ∃ done' bs', (readEvents version (behind done bs)).2 = behind done' bs' := by
  rw [readEventsRaising, readEvents, Reader.remaining_behind]
  by_cases hnew : version.atLeast 2 1 = true
  · rw [if_pos hnew]
    by_cases hlong : 4 ≤ bs.length
    · obtain ⟨count, done', bs', hcount⟩ := exists_record_eq Layout.uint32 hlong done
      obtain ⟨result, hraising, htimes, hleft⟩ := readNamesRaising_eq count.toNat done' bs'
      rw [if_pos ⟨hnew, by exact_mod_cast hlong⟩, from?_of_ok hcount, hcount]
      simp only [bind, Except.bind, Reader.remaining_behind, Int.toNat_natCast, hraising, htimes]
      exact ⟨trivial, hleft⟩
    · obtain ⟨fault, hfault⟩ := record_of_short Layout.uint32 (Nat.lt_of_not_le hlong) done
      rw [if_neg (by rintro ⟨-, h⟩; exact hlong (by exact_mod_cast h)), hfault]
      exact ⟨rfl, done, bs, rfl⟩
  · rw [if_neg (fun h => hnew h.1), if_neg hnew]
    exact ⟨rfl, done, bs, rfl⟩

theorem readIntervalsRaising_eq (speed : Binary32) (actions : List Action) (done bs : Bytes) :
    readIntervalsRaising speed actions (behind done bs) =
      .ok (readIntervals speed actions (behind done bs)) := by
  induction actions generalizing speed done bs with
  | nil => rfl
  | cons action actions ih =>
      rw [readIntervalsRaising, readIntervals, Reader.remaining_behind]
      by_cases hlong : 4 ≤ bs.length
      · obtain ⟨next, done', bs', hnext⟩ := exists_record_eq Layout.float32 hlong done
        rw [if_pos (by exact_mod_cast hlong), from?_of_ok hnext, hnext]
        simp only [bind, Except.bind, ih]
        rfl
      · obtain ⟨fault, hfault⟩ := record_of_short Layout.float32 (Nat.lt_of_not_le hlong) done
        rw [if_neg (by exact_mod_cast hlong), hfault]
        simp only [bind, Except.bind, ih]
        rfl

theorem headerSize_le_of_decodeHeader {header : Version × Nat}
    (h : decodeHeader bs = .ok header) : headerSize ≤ bs.length := by
  by_contra hsmall
  have hraising := decodeHeaderRaising_eq bs
  rw [h, decodeHeaderRaising, if_pos (Nat.lt_of_not_le hsmall)] at hraising
  cases hraising

theorem decodeRaising_eq (bs : Bytes) : decodeRaising bs = (decode bs).mapError .fault := by
  unfold decodeRaising decode
  rw [decodeHeaderRaising_eq]
  cases hheader : decodeHeader bs with
  | error fault => rfl
  | ok header =>
      obtain ⟨version, count⟩ := header
      have hbehind : Reader.ofBytes bs headerSize =
          behind (bs.take headerSize) (bs.drop headerSize) := by
        rw [behind, List.take_append_drop, List.length_take,
          Nat.min_eq_left (headerSize_le_of_decodeHeader hheader)]
      obtain ⟨done, rest, hleft⟩ := stays_readActions version count (bs.take headerSize)
        (bs.drop headerSize)
      rw [← hbehind] at hleft
      simp only [Except.mapError, bind, Except.bind, readActionsRaising_eq]
      generalize readActions version count (Reader.ofBytes bs headerSize) = read at hleft ⊢
      obtain ⟨actions, left⟩ := read
      obtain rfl : left = behind done rest := hleft
      by_cases hnone : actions.isEmpty = true
      · simp only [if_pos hnone]
        rfl
      · obtain ⟨hevents, done', rest', hend⟩ := readEventsRaising_eq version done rest
        have hintervals : intervalsForRaising version actions
            (readEvents version (behind done rest)).2 =
            .ok (intervalsFor version actions (readEvents version (behind done rest)).2) := by
          rw [hend, intervalsForRaising, intervalsFor, readIntervalsRaising_eq]
          split <;> rfl
        simp only [if_neg hnone, hevents, hintervals]
        rfl

end Animation

end ArchiveExport
