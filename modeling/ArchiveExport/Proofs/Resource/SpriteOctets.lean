import ArchiveExport.Proofs.Resource.Sprite
import Mathlib.Tactic.SplitIfs

/-!
# What the octets of a sprite stand for

A sprite file that is decoded falls into its header, the octets of each frame in turn, octets that
no frame is read from, and its palette. Only the last frame of both lists can be cut, by the end of
what stands in front of the palette, and behind a cut indexed frame there is no room for another
frame of either kind.
-/

namespace ArchiveExport

variable {kind : FrameKind} {shortened : Bool} {f : SpriteFrame} {bs rest more : Bytes}
  {count index : Nat}

theorem Bytes.ofNat_toNat_pair (low high : UInt8) :
    Bytes.ofNat 2 (Bytes.toNat [low, high]) = [low, high] :=
  Bytes.ofNat_toNat [low, high]

namespace SpriteFrame

/-- The number of octets of a frame's pixels. -/
def fullSize (f : SpriteFrame) : Nat :=
  f.width * f.height * f.kind.pixelSize

theorem isEmpty_eq_false_iff : f.isEmpty = false ↔ ¬ (f.width = 0 ∨ f.height = 0) := by
  rw [← Bool.not_eq_true, isEmpty_iff]

theorem fullSize_of_isEmpty (h : f.isEmpty = true) : f.fullSize = 0 := by
  rcases isEmpty_iff.mp h with h | h <;> simp [fullSize, h]

theorem dimensions_mk (w0 w1 h0 h1 : UInt8) (kind : FrameKind) (data : Bytes) :
    (SpriteFrame.mk (Bytes.toNat [w0, w1]) (Bytes.toNat [h0, h1]) kind data).dimensions =
      [w0, w1, h0, h1] := by
  rw [dimensions, Bytes.ofNat_toNat_pair, Bytes.ofNat_toNat_pair]
  rfl

end SpriteFrame

namespace Sprite

open SpriteFrame

/-! ### Headers -/

/-- A header says what stands in the first octets: the version, the minor number first, and the
counts, of which there is only one before version 2.0. -/
structure Header.Heads (header : Header) (bs : Bytes) : Prop where
  version_eq : header.version = ⟨Bytes.toNat (bs.slice 3 1), Bytes.toNat (bs.slice 2 1)⟩
  indexed_eq : header.indexed = Bytes.toNat (bs.slice 4 2)
  rgba_eq : header.rgba = if header.version.atLeast 2 0 then Bytes.toNat (bs.slice 6 2) else 0
  size_eq : header.size = if header.version.atLeast 2 0 then 8 else 6
  size_le : header.size ≤ bs.length

theorem heads_of_decodeHeader {header : Header} (h : decodeHeader bs = .ok header) :
    header.Heads bs := by
  match bs with
  | [] | [_] | [_, _] | [_, _, _] | [_, _, _, _] | [_, _, _, _, _] => cases h
  | s0 :: s1 :: minor :: major :: i0 :: i1 :: rest =>
    unfold decodeHeader at h
    simp only [bind, Except.bind, pure, Except.pure, throw, throwThe, MonadExceptOf.throw] at h
    split_ifs at h with hsignature hversion hnew hmany
    · match rest with
      | [] | [_] => cases h
      | r0 :: r1 :: rest =>
        simp only at h
        split_ifs at h
        cases h
        exact ⟨rfl, rfl, (if_pos hnew).symm, (if_pos hnew).symm, by simp⟩
    · cases h
      exact ⟨rfl, rfl, (if_neg hnew).symm, (if_neg hnew).symm, by simp⟩

/-! ### Frames and their octets -/

/-- Where the octets of a frame end. -/
inductive Stop where
  /-- Behind the body. -/
  | whole
  /-- In front of the size of a shortened body. -/
  | beforeSize
  | inBody
  deriving DecidableEq

/-- A frame with the octets that it was read from. -/
structure Placed where
  frame : SpriteFrame
  octets : Bytes
  stop : Stop

/-- How a frame comes from its octets, where bodies are shortened or are not. -/
inductive Placed.Reads : Bool → Placed → Prop
  | empty (shortened : Bool) {f : SpriteFrame} (hempty : f.isEmpty = true) (hdata : f.data = []) :
      Reads shortened ⟨f, f.dimensions, .whole⟩
  | beforeSize {f : SpriteFrame} (hempty : f.isEmpty = false) (hdata : f.data = []) :
      Reads true ⟨f, f.dimensions, .beforeSize⟩
  | shortened {f : SpriteFrame} (body : Bytes) (hempty : f.isEmpty = false)
      (hsize : body.length < Nat.pow 256 2)
      (hdata : f.data = RunLength.decompress body (f.width * f.height)) :
      Reads true ⟨f, f.dimensions ++ (Bytes.ofNat 2 body.length ++ body), .whole⟩
  | shortenedCut {f : SpriteFrame} (size : Nat) (body : Bytes) (hempty : f.isEmpty = false)
      (hsize : size < Nat.pow 256 2) (hcut : body.length < size)
      (hdata : f.data = RunLength.decompress body (f.width * f.height)) :
      Reads true ⟨f, f.dimensions ++ (Bytes.ofNat 2 size ++ body), .inBody⟩
  | plain {f : SpriteFrame} (hempty : f.isEmpty = false) (hdata : f.data.length = f.fullSize) :
      Reads false ⟨f, f.dimensions ++ f.data, .whole⟩
  | plainCut {f : SpriteFrame} (hempty : f.isEmpty = false) (hcut : f.data.length < f.fullSize) :
      Reads false ⟨f, f.dimensions ++ f.data, .inBody⟩

theorem Placed.Reads.four_le_length_octets {p : Placed} (h : p.Reads shortened) :
    4 ≤ p.octets.length := by
  cases h <;> simp [dimensions] <;> omega

/-- Shortened bodies give all pixels of a frame, whether or not they are cut. -/
theorem Placed.Reads.length_data_of_shortened {p : Placed} (h : p.Reads true)
    (hempty : p.frame.isEmpty = false) (hstop : p.stop ≠ .beforeSize) :
    p.frame.data.length = p.frame.width * p.frame.height := by
  cases h with
  | empty _ hempty' => simp [hempty'] at hempty
  | beforeSize => exact absurd rfl hstop
  | shortened body _ _ hdata => rw [hdata, RunLength.decompress, Bytes.length_fit]
  | shortenedCut size body _ _ _ hdata => rw [hdata, RunLength.decompress, Bytes.length_fit]

theorem Placed.Reads.data_of_beforeSize {p : Placed} (h : p.Reads shortened)
    (hstop : p.stop = .beforeSize) : p.frame.data = [] := by
  cases h with
  | beforeSize _ hdata => exact hdata
  | _ => cases hstop

/-- Plain bodies give no more than the pixels of a frame, and all of them unless they are cut. -/
theorem Placed.Reads.length_data_of_plain {p : Placed} (h : p.Reads false) :
    p.frame.data.length ≤ p.frame.fullSize ∧
      (p.stop = .whole → p.frame.data.length = p.frame.fullSize) := by
  cases h with
  | empty _ hempty hdata => simp [hdata, fullSize_of_isEmpty hempty]
  | plain _ hdata => exact ⟨Nat.le_of_eq hdata, fun _ => hdata⟩
  | plainCut _ hcut => exact ⟨Nat.le_of_lt hcut, by simp⟩

/-- A frame whose octets stand in front of others; where its body is cut there are none. -/
structure Placed.Leads (p : Placed) (shortened : Bool) (bs more : Bytes) : Prop where
  reads : p.Reads shortened
  octets_eq : bs = p.octets ++ more
  stop_ne : p.stop ≠ .beforeSize
  more_of_inBody : p.stop = .inBody → more = []

theorem exists_leads_of_shortened {size : Nat} (hempty : f.isEmpty = false)
    (hsize : size < Nat.pow 256 2)
    (hdata : f.data = RunLength.decompress (rest.take size) (f.width * f.height)) :
    ∃ p : Placed, p.frame = f ∧
      p.Leads true (f.dimensions ++ (Bytes.ofNat 2 size ++ rest)) (rest.drop size) := by
  have hoctets : f.dimensions ++ (Bytes.ofNat 2 size ++ rest) =
      f.dimensions ++ (Bytes.ofNat 2 size ++ rest.take size) ++ rest.drop size := by
    simp
  by_cases hcut : rest.length < size
  · have hshort : (rest.take size).length < size := by
      rw [List.length_take]
      omega
    refine ⟨⟨f, _, .inBody⟩, rfl, .shortenedCut size _ hempty hsize hshort hdata, hoctets, by simp,
      fun _ => ?_⟩
    exact List.drop_eq_nil_of_le (Nat.le_of_lt hcut)
  · have hlength : (rest.take size).length = size := List.length_take_of_le (by omega)
    have hfits : (rest.take size).length < Nat.pow 256 2 := by rwa [hlength]
    refine ⟨⟨f, _, .whole⟩, rfl, .shortened (rest.take size) hempty hfits hdata, ?_, by simp,
      by simp⟩
    rw [hlength]
    exact hoctets

theorem exists_leads_of_plain (hempty : f.isEmpty = false) (hdata : f.data = rest.take f.fullSize) :
    ∃ p : Placed, p.frame = f ∧
      p.Leads false (f.dimensions ++ rest) (rest.drop f.fullSize) := by
  have hoctets : f.dimensions ++ rest = f.dimensions ++ f.data ++ rest.drop f.fullSize := by
    rw [hdata, List.append_assoc, List.take_append_drop]
  have hlength : f.data.length = min f.fullSize rest.length := by
    rw [hdata, List.length_take]
  by_cases hcut : rest.length < f.fullSize
  · refine ⟨⟨f, _, .inBody⟩, rfl, .plainCut hempty (by omega), hoctets, by simp, fun _ => ?_⟩
    exact List.drop_eq_nil_of_le (Nat.le_of_lt hcut)
  · exact ⟨⟨f, _, .whole⟩, rfl, .plain hempty (by omega), hoctets, by simp, by simp⟩

/-- What is read as the body of a frame stands in front of the octets behind it. -/
theorem exists_leads_of_readBody (hempty : f.isEmpty = false)
    (h : readBody f.kind shortened (f.width * f.height) rest = some (f.data, more)) :
    ∃ p : Placed, p.frame = f ∧ p.Leads shortened (f.dimensions ++ rest) more := by
  unfold readBody at h
  split at h
  next hshortened =>
    subst hshortened
    split at h
    next s0 s1 body =>
      simp only [Option.some.injEq, Prod.mk.injEq] at h
      obtain ⟨hdata, rfl⟩ := h
      have hbody := exists_leads_of_shortened hempty (Bytes.toNat_lt [s0, s1]) hdata.symm
      rwa [Bytes.ofNat_toNat_pair] at hbody
    next => cases h
  next hplain =>
    simp only [Option.some.injEq, Prod.mk.injEq] at h
    obtain ⟨hdata, rfl⟩ := h
    obtain rfl : shortened = false := by simpa using hplain
    exact exists_leads_of_plain hempty hdata.symm

theorem length_lt_of_readBody_eq_none {pixels : Nat}
    (h : readBody kind shortened pixels rest = none) : shortened = true ∧ rest.length < 2 := by
  unfold readBody at h
  split at h
  next hshortened =>
    refine ⟨hshortened, ?_⟩
    match rest with
    | [] | [_] => simp
    | _ :: _ :: _ => cases h
  next => cases h

/-- The frames of a list, each with the octets that it was read from. Only the last one can be cut,
and then too little is left for another frame, as it is behind a list that is too short. -/
structure FrameList.Placement (kind : FrameKind) (shortened : Bool) (count : Nat) (bs : Bytes)
    (list : FrameList) (placed : List Placed) : Prop where
  frames_eq : list.frames = placed.map Placed.frame
  octets_eq : bs = placed.flatMap Placed.octets ++ list.rest
  length_le : placed.length ≤ count
  reads : ∀ p ∈ placed, p.frame.kind = kind ∧ p.Reads shortened
  whole : ∀ p ∈ placed.dropLast, p.stop = .whole
  rest_of_beforeSize : ∀ p ∈ placed, p.stop = .beforeSize → list.rest.length < 2
  rest_of_inBody : ∀ p ∈ placed, p.stop = .inBody → list.rest = []
  rest_of_short : placed.length < count → list.rest.length < 4

namespace FrameList.Placement

variable {list : FrameList} {placed : List Placed} {p : Placed}

/-- Octets too few for the dimensions of a frame hold no frame. -/
theorem eq_nil_of_short (h : list.Placement kind shortened count bs placed)
    (hshort : bs.length < 4) : placed = [] := by
  cases placed with
  | nil => rfl
  | cons p placed =>
      have hfour := (h.reads p List.mem_cons_self).2.four_le_length_octets
      have hlength := congrArg List.length h.octets_eq
      rw [List.flatMap_cons, List.length_append, List.length_append] at hlength
      omega

theorem nil (hshort : 0 < count → bs.length < 4) (missing : Option Nat) :
    FrameList.Placement kind shortened count bs ⟨[], bs, missing⟩ [] where
  frames_eq := rfl
  octets_eq := rfl
  length_le := Nat.zero_le count
  reads := List.forall_mem_nil _
  whole := List.forall_mem_nil _
  rest_of_beforeSize := List.forall_mem_nil _
  rest_of_inBody := List.forall_mem_nil _
  rest_of_short := hshort

/-- A frame without the size of its body is the last one. -/
theorem beforeSize (count : Nat) (hempty : f.isEmpty = false) (hdata : f.data = [])
    (hshort : rest.length < 2) :
    FrameList.Placement f.kind true (count + 1) (f.dimensions ++ rest) ⟨[f], rest, none⟩
      [⟨f, f.dimensions, .beforeSize⟩] where
  frames_eq := rfl
  octets_eq := by simp
  length_le := Nat.succ_le_succ (Nat.zero_le count)
  reads := List.forall_mem_singleton.mpr ⟨rfl, .beforeSize hempty hdata⟩
  whole := List.forall_mem_nil _
  rest_of_beforeSize := fun _ _ _ => hshort
  rest_of_inBody := by simp
  rest_of_short := fun _ => Nat.lt_trans hshort (by decide)

/-- Behind a frame that is not cut the list goes on, and behind a frame whose body is cut nothing is
left. -/
theorem cons (h : list.Placement kind shortened count more placed) (hkind : p.frame.kind = kind)
    (hp : p.Leads shortened bs more) :
    (list.cons p.frame).Placement kind shortened (count + 1) bs (p :: placed) where
  frames_eq := by rw [FrameList.cons, List.map_cons, h.frames_eq]
  octets_eq := by
    rw [hp.octets_eq, FrameList.cons, List.flatMap_cons, List.append_assoc, ← h.octets_eq]
  length_le := Nat.succ_le_succ h.length_le
  reads := List.forall_mem_cons.mpr ⟨⟨hkind, hp.reads⟩, h.reads⟩
  whole := by
    by_cases hlast : placed = []
    · simp [hlast]
    · rw [List.dropLast_cons_of_ne_nil hlast, List.forall_mem_cons]
      refine ⟨?_, h.whole⟩
      cases hstop : p.stop with
      | whole => rfl
      | beforeSize => exact absurd hstop hp.stop_ne
      | inBody => exact absurd (h.eq_nil_of_short (by simp [hp.more_of_inBody hstop])) hlast
  rest_of_beforeSize := List.forall_mem_cons.mpr
    ⟨fun hstop => absurd hstop hp.stop_ne, h.rest_of_beforeSize⟩
  rest_of_inBody := by
    refine List.forall_mem_cons.mpr ⟨fun hstop => ?_, h.rest_of_inBody⟩
    have hnone := h.octets_eq
    rw [hp.more_of_inBody hstop] at hnone
    exact (List.append_eq_nil_iff.mp hnone.symm).2
  rest_of_short := fun hshort => h.rest_of_short (Nat.lt_of_succ_lt_succ hshort)

end FrameList.Placement

/-- Reading a list of frames places them one behind the other. -/
theorem exists_placement (kind : FrameKind) (shortened : Bool) (count index : Nat) (bs : Bytes) :
    ∃ placed, (readFrames kind shortened count index bs).Placement kind shortened count bs
      placed := by
  fun_induction readFrames kind shortened count index bs with
  | case1 index rest => exact ⟨[], .nil (by simp) none⟩
  | case2 count index w0 w1 h0 h1 rest width height hempty ih =>
      obtain ⟨placed, hplaced⟩ := ih
      have hframe : (SpriteFrame.mk width height kind []).isEmpty = true :=
        SpriteFrame.isEmpty_iff.mpr hempty
      refine ⟨_, hplaced.cons rfl ⟨.empty shortened hframe rfl, ?_, by simp, by simp⟩⟩
      rw [dimensions_mk]
      rfl
  | case3 count index w0 w1 h0 h1 rest width height hempty data behind hbody ih =>
      obtain ⟨placed, hplaced⟩ := ih
      have hframe : (SpriteFrame.mk width height kind data).isEmpty = false :=
        isEmpty_eq_false_iff.mpr hempty
      obtain ⟨p, hp, hleads⟩ := exists_leads_of_readBody hframe hbody
      rw [dimensions_mk] at hleads
      have hcons := hplaced.cons (by rw [hp]) hleads
      rw [hp] at hcons
      exact ⟨p :: placed, hcons⟩
  | case4 count index w0 w1 h0 h1 rest width height hempty hbody =>
      obtain ⟨rfl, hshort⟩ := length_lt_of_readBody_eq_none hbody
      have hframe : (SpriteFrame.mk width height kind []).isEmpty = false :=
        isEmpty_eq_false_iff.mpr hempty
      have hlast := FrameList.Placement.beforeSize count hframe rfl hshort
      rw [dimensions_mk] at hlast
      exact ⟨_, hlast⟩
  | case5 count index rest hlong =>
      refine ⟨[], .nil (fun _ => ?_) _⟩
      match rest with
      | [] | [_] | [_, _] | [_, _, _] => simp
      | w0 :: w1 :: h0 :: h1 :: rest => exact absurd rfl (hlong w0 w1 h0 h1 rest)

/-! ### Files and their octets -/

/-- How the octets of a file are divided. -/
structure Division where
  head : Bytes
  indexed : List Placed
  rgba : List Placed
  /-- The octets behind the frames that no frame is read from. -/
  left : Bytes
  palette : Bytes

namespace Division

/-- The frames of both lists with their octets. -/
def placed (d : Division) : List Placed :=
  d.indexed ++ d.rgba

/-- All parts in their order. -/
def octets (d : Division) : Bytes :=
  d.head ++ (d.placed.flatMap Placed.octets ++ d.left) ++ d.palette

/-- The parts are what a header and a sprite were read from. -/
structure Reads (d : Division) (header : Header) (s : Sprite) : Prop where
  length_head : d.head.length = header.size
  version_eq : s.version = header.version
  indexed_eq : s.indexed = d.indexed.map Placed.frame
  rgba_eq : s.rgba = d.rgba.map Placed.frame
  reads_indexed : ∀ p ∈ d.indexed, p.frame.kind = .indexed ∧ p.Reads (s.version.atLeast 2 1)
  reads_rgba : ∀ p ∈ d.rgba, p.frame.kind = .rgba ∧ p.Reads false
  whole : ∀ p ∈ d.placed.dropLast, p.stop = .whole
  left_of_beforeSize : ∀ p ∈ d.placed, p.stop = .beforeSize → d.left.length < 2
  left_of_inBody : ∀ p ∈ d.placed, p.stop = .inBody → d.left = []
  length_palette : d.palette.length =
    if header.indexed ≠ 0 ∧ header.size + Palette.size ≤ d.octets.length then Palette.size else 0
  palette_eq : s.palette =
    if d.palette = [] then .grey else .ofTable d.palette Palette.opaqueBut0

end Division

/-- The palette is the last part of what stands behind a header. -/
theorem exists_palette_octets (header : Header) (body : Bytes) :
    ∃ palette, body = (splitPalette header body).1 ++ palette ∧
      palette.length =
        (if header.indexed ≠ 0 ∧ Palette.size ≤ body.length then Palette.size else 0) ∧
      (splitPalette header body).2 =
        if palette = [] then .grey else .ofTable palette Palette.opaqueBut0 := by
  by_cases hstored : header.indexed ≠ 0 ∧ Palette.size ≤ body.length
  · have hlength : (body.drop (body.length - Palette.size)).length = Palette.size := by
      rw [List.length_drop]
      omega
    have hsome : body.drop (body.length - Palette.size) ≠ [] := by
      intro hnone
      rw [hnone] at hlength
      exact absurd hlength (by decide)
    refine ⟨body.drop (body.length - Palette.size), ?_, ?_, ?_⟩
    · rw [splitPalette, if_pos hstored, List.take_append_drop]
    · rw [if_pos hstored, hlength]
    · rw [splitPalette, if_pos hstored, if_neg hsome]
  · refine ⟨[], ?_, ?_, ?_⟩
    · rw [splitPalette, if_neg hstored, List.append_nil]
    · rw [if_neg hstored, List.length_nil]
    · rw [splitPalette, if_neg hstored, if_pos rfl]

/-! ### Both lists of frames -/

namespace FrameList.Placement

variable {first second : FrameList} {placed others : List Placed} {announced : Nat}
  {p : Placed} {other : FrameKind} (h : first.Placement kind shortened count bs placed)
  (hothers : second.Placement other false announced first.rest others)

include h hothers

/-- Behind a list that is too short or has a frame that is cut there are no more frames. -/
theorem eq_nil_of_cut (hcut : placed.length < count ∨ ∃ p ∈ placed, p.stop ≠ .whole) :
    others = [] := by
  refine hothers.eq_nil_of_short ?_
  rcases hcut with hshort | ⟨p, hp, hstop⟩
  · exact h.rest_of_short hshort
  · cases hwhere : p.stop with
    | whole => exact absurd hwhere hstop
    | beforeSize => exact Nat.lt_trans (h.rest_of_beforeSize p hp hwhere) (by decide)
    | inBody => simp [h.rest_of_inBody p hp hwhere]

theorem whole_append : ∀ p ∈ (placed ++ others).dropLast, p.stop = .whole := by
  by_cases hnone : others = []
  · rw [hnone, List.append_nil]
    exact h.whole
  · rw [List.dropLast_append_of_ne_nil hnone, List.forall_mem_append]
    refine ⟨fun p hp => ?_, hothers.whole⟩
    by_cases hstop : p.stop = .whole
    · exact hstop
    · exact absurd (h.eq_nil_of_cut hothers (Or.inr ⟨p, hp, hstop⟩)) hnone

/-- What is left behind a frame that is cut is left behind both lists. -/
theorem rest_eq_or_mem (hp : p ∈ placed ++ others) (hstop : p.stop ≠ .whole) :
    (p ∈ placed ∧ second.rest = first.rest) ∨ p ∈ others := by
  refine (List.mem_append.mp hp).imp_left fun hp => ⟨hp, ?_⟩
  have hrest := hothers.octets_eq
  rw [h.eq_nil_of_cut hothers (Or.inr ⟨p, hp, hstop⟩)] at hrest
  exact hrest.symm

theorem left_of_beforeSize (hp : p ∈ placed ++ others) (hstop : p.stop = .beforeSize) :
    second.rest.length < 2 := by
  rcases h.rest_eq_or_mem hothers hp (by simp [hstop]) with ⟨hp, hrest⟩ | hp
  · rw [hrest]
    exact h.rest_of_beforeSize p hp hstop
  · exact hothers.rest_of_beforeSize p hp hstop

theorem left_of_inBody (hp : p ∈ placed ++ others) (hstop : p.stop = .inBody) :
    second.rest = [] := by
  rcases h.rest_eq_or_mem hothers hp (by simp [hstop]) with ⟨hp, hrest⟩ | hp
  · rw [hrest]
    exact h.rest_of_inBody p hp hstop
  · exact hothers.rest_of_inBody p hp hstop

end FrameList.Placement

/-- What is decoded divides the octets, and no more frames of a kind are read than announced. -/
theorem exists_division {s : Sprite} (h : (decode bs).2 = .ok s) :
    ∃ header d, header.Heads bs ∧ Division.octets d = bs ∧ d.Reads header s ∧
      (d.indexed.length ≤ header.indexed ∧ d.rgba.length ≤ header.rgba) ∧
      (d.indexed.length < header.indexed ∨ (∃ p ∈ d.indexed, p.stop ≠ .whole) → d.rgba = []) := by
  unfold decode at h
  split at h
  next => cases h
  next header hheader =>
    have hheads := heads_of_decodeHeader hheader
    obtain ⟨palette, hbody, hlength, hpalette⟩ :=
      exists_palette_octets header (bs.drop header.size)
    rcases hsplit : splitPalette header (bs.drop header.size) with ⟨frames, colors⟩
    rw [hsplit] at hbody hpalette
    simp only [hsplit] at h
    generalize hfirst : readFrames .indexed (header.version.atLeast 2 1) header.indexed 0 frames =
      first at h
    generalize hsecond : readFrames .rgba false header.rgba 0 first.rest = second at h
    obtain ⟨indexed, hindexed⟩ :=
      exists_placement .indexed (header.version.atLeast 2 1) header.indexed 0 frames
    obtain ⟨rgba, hrgba⟩ := exists_placement .rgba false header.rgba 0 first.rest
    rw [hfirst] at hindexed
    rw [hsecond] at hrgba
    have hframes : frames = (indexed ++ rgba).flatMap Placed.octets ++ second.rest := by
      rw [List.flatMap_append, List.append_assoc, ← hrgba.octets_eq]
      exact hindexed.octets_eq
    have hoctets : bs.take header.size ++
        ((indexed ++ rgba).flatMap Placed.octets ++ second.rest) ++ palette = bs := by
      rw [← hframes, List.append_assoc, ← hbody, List.take_append_drop]
    have hroom : (header.indexed ≠ 0 ∧ Palette.size ≤ (bs.drop header.size).length) ↔
        header.indexed ≠ 0 ∧ header.size + Palette.size ≤ bs.length := by
      have hpositive : 0 < Palette.size := by decide
      rw [List.length_drop]
      refine and_congr_right fun _ => ?_
      omega
    split at h
    next => cases h
    next =>
      simp only [Except.ok.injEq] at h
      subst h
      refine ⟨header, ⟨bs.take header.size, indexed, rgba, second.rest, palette⟩, hheads, hoctets,
        ?_, ⟨hindexed.length_le, hrgba.length_le⟩, hindexed.eq_nil_of_cut hrgba⟩
      exact {
        length_head := List.length_take_of_le hheads.size_le
        version_eq := rfl
        indexed_eq := hindexed.frames_eq
        rgba_eq := hrgba.frames_eq
        reads_indexed := hindexed.reads
        reads_rgba := hrgba.reads
        whole := hindexed.whole_append hrgba
        left_of_beforeSize := fun _ hp => hindexed.left_of_beforeSize hrgba hp
        left_of_inBody := fun _ hp => hindexed.left_of_inBody hrgba hp
        length_palette := by
          rw [hlength]
          simp only [hroom, Division.octets, Division.placed, hoctets]
        palette_eq := hpalette }

/-! ### What cut frames hold -/

theorem exists_placed_of_map_eq {placed : List Placed} {before after : List SpriteFrame}
    (h : placed.map Placed.frame = before ++ f :: after) :
    ∃ front p back, placed = front ++ p :: back ∧ p.frame = f ∧ back.map Placed.frame = after := by
  obtain ⟨front, others, rfl, -, hothers⟩ := List.map_eq_append_iff.mp h
  obtain ⟨p, back, rfl, hp, hback⟩ := List.map_eq_cons_iff.mp hothers
  exact ⟨front, p, back, rfl, hp, hback⟩

namespace Division.Reads

variable {d : Division} {header : Header} {s : Sprite} {p : Placed} {front back : List Placed}

theorem frames_eq (h : d.Reads header s) : s.frames = d.placed.map Placed.frame := by
  rw [frames, h.indexed_eq, h.rgba_eq, placed, List.map_append]

/-- Behind a frame that is cut there is no other one. -/
theorem eq_nil_of_stop (h : d.Reads header s) (hplaced : d.placed = front ++ p :: back)
    (hstop : p.stop ≠ .whole) : back = [] := by
  by_cases hback : back = []
  · exact hback
  · have hwhole := h.whole p (by
      rw [hplaced, List.dropLast_append_of_ne_nil (by simp), List.dropLast_cons_of_ne_nil hback]
      simp)
    exact absurd hwhole hstop

/-- A shortened frame has the data of all its pixels, unless it is the last one and ends in front
of the size of its body. -/
theorem length_data_of_shortened (h : d.Reads header s) (hversion : s.version.atLeast 2 1 = true)
    {before after : List SpriteFrame} (hf : s.indexed = before ++ f :: after)
    (hempty : f.isEmpty = false) :
    f.data.length = f.width * f.height ∨ (after = [] ∧ f.data = [] ∧
      d.indexed.getLast? = some ⟨f, f.dimensions, .beforeSize⟩ ∧ d.left.length < 2) := by
  obtain ⟨front, p, back, hindexed, rfl, rfl⟩ :=
    exists_placed_of_map_eq (h.indexed_eq.symm.trans hf)
  have hp : p ∈ d.indexed := by simp [hindexed]
  have hreads := (h.reads_indexed p hp).2
  rw [hversion] at hreads
  by_cases hstop : p.stop = .beforeSize
  · have hplaced : d.placed = front ++ p :: (back ++ d.rgba) := by simp [placed, hindexed]
    have hnone := h.eq_nil_of_stop hplaced (by simp [hstop])
    obtain ⟨rfl, -⟩ := List.append_eq_nil_iff.mp hnone
    refine Or.inr ⟨rfl, hreads.data_of_beforeSize hstop, ?_,
      h.left_of_beforeSize p (by simp [hplaced]) hstop⟩
    rw [hindexed, List.getLast?_concat]
    cases hreads with
    | beforeSize _ _ => rfl
    | _ => cases hstop
  · exact Or.inl (hreads.length_data_of_shortened hempty hstop)

/-- A frame that is not shortened has no more data than its pixels take, and less only if it is the
last one. -/
theorem length_data_of_plain (h : d.Reads header s)
    {before after : List SpriteFrame} (hf : s.frames = before ++ f :: after)
    (hplain : f.kind = .rgba ∨ s.version.atLeast 2 1 = false) :
    f.data.length ≤ f.fullSize ∧ (f.data.length < f.fullSize → after = []) := by
  obtain ⟨front, p, back, hplaced, rfl, rfl⟩ :=
    exists_placed_of_map_eq (h.frames_eq.symm.trans hf)
  have hreads : p.Reads false := by
    have hp : p ∈ d.indexed ++ d.rgba := by
      rw [← placed, hplaced]
      simp
    rcases List.mem_append.mp hp with hp | hp
    · obtain ⟨hkind, hreads⟩ := h.reads_indexed p hp
      rcases hplain with hrgba | hversion
      · simp [hkind] at hrgba
      · rwa [hversion] at hreads
    · exact (h.reads_rgba p hp).2
  obtain ⟨hle, hwhole⟩ := hreads.length_data_of_plain
  refine ⟨hle, fun hless => ?_⟩
  have hnone := h.eq_nil_of_stop hplaced fun hstop => by
    have := hwhole hstop
    omega
  rw [hnone, List.map_nil]

end Division.Reads

/-- A file that is decoded falls into its header, the octets of its frames in turn, octets that no
frame is read from, and its palette. No more frames of a kind are read than announced; behind
indexed frames that are fewer, or the last of which is cut, there are no full-colour frames. A
shortened frame has the data of all its pixels, unless it is the last one and ends in front of the
size of its body; any other frame has no more data than its pixels take, and less only if it is the
last one of all. -/
theorem decode_divides {s : Sprite} (h : (decode bs).2 = .ok s) :
    ∃ header d, header.Heads bs ∧ Division.octets d = bs ∧ d.Reads header s ∧
      (s.indexed.length ≤ header.indexed ∧ s.rgba.length ≤ header.rgba) ∧
      (s.indexed.length < header.indexed ∨
          (∃ p, d.indexed.getLast? = some p ∧ p.stop ≠ .whole) → s.rgba = []) ∧
      (∀ before f after, s.version.atLeast 2 1 = true → s.indexed = before ++ f :: after →
        f.isEmpty = false → f.data.length = f.width * f.height ∨ (after = [] ∧ f.data = [] ∧
          d.indexed.getLast? = some ⟨f, f.dimensions, .beforeSize⟩ ∧ d.left.length < 2)) ∧
      ∀ before f after, s.frames = before ++ f :: after →
        f.kind = .rgba ∨ s.version.atLeast 2 1 = false →
          f.data.length ≤ f.fullSize ∧ (f.data.length < f.fullSize → after = []) := by
  obtain ⟨header, d, hheads, hoctets, hd, ⟨hindexed, hrgba⟩, hcut⟩ := exists_division h
  refine ⟨header, d, hheads, hoctets, hd, ?_, ?_,
    fun _ _ _ hversion hf hempty => hd.length_data_of_shortened hversion hf hempty,
    fun _ _ _ hf hplain => hd.length_data_of_plain hf hplain⟩
  · rw [hd.indexed_eq, hd.rgba_eq, List.length_map, List.length_map]
    exact ⟨hindexed, hrgba⟩
  · rw [hd.indexed_eq, hd.rgba_eq, List.length_map, List.map_eq_nil_iff]
    exact fun hends => hcut (hends.imp_right fun ⟨p, hp, hstop⟩ =>
      ⟨p, List.mem_of_getLast? hp, hstop⟩)

/-- Two shortened frames, of which the second ends in front of its size, where a full-colour frame
is announced behind them. -/
def cutOctets : Bytes :=
  [0x53, 0x50, 1, 2, 2, 0, 1, 0] ++ ([2, 0, 1, 0, 3, 0, 0, 1, 5] ++ [1, 0, 1, 0] ++ [9])

/-- What is read from them. -/
def cutSprite : Sprite where
  version := ⟨2, 1⟩
  indexed := [⟨2, 1, .indexed, [0, 5]⟩, ⟨1, 1, .indexed, []⟩]
  rgba := []
  palette := .grey

theorem decode_divides_of_cutOctets :
    (decode cutOctets).2 = .ok cutSprite ∧
      ∃ header d, header.Heads cutOctets ∧ Division.octets d = cutOctets ∧
        d.Reads header cutSprite ∧
        d.indexed.getLast? = some ⟨⟨1, 1, .indexed, []⟩, [1, 0, 1, 0], .beforeSize⟩ := by
  have hdecode : (decode cutOctets).2 = .ok cutSprite := rfl
  obtain ⟨header, d, hheads, hoctets, hd, -, -, hshortened, -⟩ := decode_divides hdecode
  refine ⟨hdecode, header, d, hheads, hoctets, hd, ?_⟩
  rcases hshortened [⟨2, 1, .indexed, [0, 5]⟩] ⟨1, 1, .indexed, []⟩ [] rfl rfl rfl with h | h
  · exact absurd h (by decide)
  · exact h.2.2.1

end Sprite

end ArchiveExport
