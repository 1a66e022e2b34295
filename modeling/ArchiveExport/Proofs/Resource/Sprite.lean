import ArchiveExport.Proofs.Resource.Palette
import ArchiveExport.Proofs.Resource.RunLength
import ArchiveExport.Proofs.Resource.Sequence
import ArchiveExport.Resource.Sprite

/-!
# Sprites as they are stored

How sprites are written down, and when they are read back. Wherever an indexed frame has its data
shortened, its dimensions are followed by a size, which is zero for a frame without pixels. Such a
frame is read without its size, so that everything behind it is read two octets too early.
-/

namespace ArchiveExport

variable {kind : FrameKind} {shortened : Bool} {f g : SpriteFrame} {fs gs : List SpriteFrame}
  {bs rest : Bytes} {count index : Nat}

theorem Bytes.ofNat_two (n : Nat) :
    Bytes.ofNat 2 n = [UInt8.ofNat n, UInt8.ofNat (n / 256)] := rfl

/-! ### Frames -/

namespace SpriteFrame

/-- A frame whose dimensions fit their fields and whose data is that of all pixels. -/
structure Whole (kind : FrameKind) (f : SpriteFrame) : Prop where
  kind_eq : f.kind = kind
  width_lt : f.width < Nat.pow 256 2
  height_lt : f.height < Nat.pow 256 2
  length_data : f.data.length = f.width * f.height * kind.pixelSize

/-- The octets of a frame's dimensions. -/
def dimensions (f : SpriteFrame) : Bytes :=
  Bytes.ofNat 2 f.width ++ Bytes.ofNat 2 f.height

/-- The octets of a frame: its dimensions, and its data as it is or shortened behind its size. A
frame without pixels has no shortened data. -/
def Written (shortened : Bool) (f : SpriteFrame) (bs : Bytes) : Prop :=
  if shortened then
    ∃ body, RunLength.Encodes body f.data ∧ body.length < Nat.pow 256 2 ∧
      (f.isEmpty = true → body = []) ∧
      bs = f.dimensions ++ (Bytes.ofNat 2 body.length ++ body)
  else
    bs = f.dimensions ++ f.data

/-- A frame without rows and columns. -/
def IsVoid (f : SpriteFrame) : Prop :=
  f.width = 0 ∧ f.height = 0

theorem isEmpty_iff : f.isEmpty = true ↔ f.width = 0 ∨ f.height = 0 := by
  simp [isEmpty]

theorem IsVoid.isEmpty (h : f.IsVoid) : f.isEmpty = true :=
  isEmpty_iff.mpr (Or.inl h.1)

theorem Whole.data_eq_nil (hf : f.Whole kind) (h : f.isEmpty = true) : f.data = [] := by
  rw [← List.length_eq_zero_iff, hf.length_data]
  rcases isEmpty_iff.mp h with h | h <;> simp [h]

theorem Whole.mk_eq (hf : f.Whole kind) (h : f.isEmpty = true) :
    SpriteFrame.mk f.width f.height kind [] = f := by
  rw [← hf.data_eq_nil h, ← hf.kind_eq]

/-- The octets of an empty frame are its dimensions, and a size where data is shortened. -/
theorem Whole.eq_of_written (hf : f.Whole kind) (h : f.isEmpty = true)
    (hbs : f.Written shortened bs) :
    bs = f.dimensions ++ if shortened then [0, 0] else [] := by
  rw [Written] at hbs
  split at hbs
  · obtain ⟨body, -, -, hbody, rfl⟩ := hbs
    obtain rfl := hbody h
    simp [*, Bytes.ofNat]
  · simp [*, hf.data_eq_nil h]

theorem Written.exists_eq_append (hbs : f.Written shortened bs) :
    ∃ body, bs = f.dimensions ++ body := by
  rw [Written] at hbs
  split at hbs
  · obtain ⟨octets, -, -, -, rfl⟩ := hbs
    exact ⟨_, rfl⟩
  · exact ⟨_, hbs⟩

theorem dimensions_of_isVoid (h : f.IsVoid) : f.dimensions = [0, 0, 0, 0] := by
  rw [dimensions, h.1, h.2]
  rfl

end SpriteFrame

namespace Sprite

open SpriteFrame

section Dimensions

variable (hf : f.Whole kind)

include hf

theorem readFrames_dimensions_append (rest : Bytes) :
    readFrames kind shortened (count + 1) index (f.dimensions ++ rest) =
      readFrames kind shortened (count + 1) index
        (UInt8.ofNat f.width :: UInt8.ofNat (f.width / 256) :: UInt8.ofNat f.height ::
          UInt8.ofNat (f.height / 256) :: rest) ∧
    Bytes.toNat [UInt8.ofNat f.width, UInt8.ofNat (f.width / 256)] = f.width ∧
    Bytes.toNat [UInt8.ofNat f.height, UInt8.ofNat (f.height / 256)] = f.height :=
  ⟨rfl, Bytes.toNat_ofNat hf.width_lt, Bytes.toNat_ofNat hf.height_lt⟩

/-- Behind the dimensions of an empty frame the next frame is looked for. -/
theorem readFrames_empty_append (hempty : f.isEmpty = true) (rest : Bytes) :
    readFrames kind shortened (count + 1) index (f.dimensions ++ rest) =
      (readFrames kind shortened count (index + 1) rest).cons f := by
  obtain ⟨hbytes, hwidth, hheight⟩ := readFrames_dimensions_append hf rest
  rw [hbytes, readFrames]
  simp only [hwidth, hheight]
  rw [if_pos (SpriteFrame.isEmpty_iff.mp hempty), hf.mk_eq hempty]

/-- Behind the dimensions of any other frame its data is looked for. -/
theorem readFrames_body_append {more : Bytes} (hempty : ¬ f.isEmpty = true)
    (hbody : readBody kind shortened (f.width * f.height) rest = some (f.data, more)) :
    readFrames kind shortened (count + 1) index (f.dimensions ++ rest) =
      (readFrames kind shortened count (index + 1) more).cons f := by
  obtain rfl := hf.kind_eq
  obtain ⟨hbytes, hwidth, hheight⟩ := readFrames_dimensions_append hf rest
  rw [hbytes, readFrames]
  simp only [hwidth, hheight, hbody]
  rw [if_neg (mt SpriteFrame.isEmpty_iff.mpr hempty)]

end Dimensions

/-- The data of a frame is read back. -/
theorem readBody_append (hf : f.Whole kind) (hkind : shortened = true → kind = .indexed)
    {body : Bytes} (hbody : f.Written shortened (f.dimensions ++ body)) (rest : Bytes) :
    readBody kind shortened (f.width * f.height) (body ++ rest) = some (f.data, rest) := by
  rw [Written] at hbody
  split at hbody
  next hshortened =>
    obtain ⟨octets, hencodes, hlength, -, hbs⟩ := hbody
    obtain rfl := List.append_cancel_left hbs
    have hsize : Bytes.toNat
        [UInt8.ofNat octets.length, UInt8.ofNat (octets.length / 256)] = octets.length :=
      Bytes.toNat_ofNat hlength
    have hpixels : f.width * f.height = f.data.length := by
      rw [hf.length_data, hkind hshortened]
      simp [FrameKind.pixelSize]
    unfold readBody
    rw [if_pos hshortened, Bytes.ofNat_two]
    simp only [List.cons_append, List.nil_append, hsize, List.take_left, List.drop_left, hpixels,
      hencodes.decompress_eq]
  next hplain =>
    obtain rfl := List.append_cancel_left hbody
    unfold readBody
    rw [if_neg hplain]
    simp only [← hf.length_data, List.take_left, List.drop_left]

/-- A frame is read back unless it is empty and has a size. -/
theorem readFrames_written_append (hf : f.Whole kind)
    (hkind : shortened = true → kind = .indexed) (hbs : f.Written shortened bs)
    (hsteady : shortened = true → f.isEmpty = false) (rest : Bytes) :
    readFrames kind shortened (count + 1) index (bs ++ rest) =
      (readFrames kind shortened count (index + 1) rest).cons f := by
  by_cases hempty : f.isEmpty = true
  · have hplain : shortened = false := by
      refine Bool.eq_false_iff.mpr fun h => ?_
      rw [hsteady h] at hempty
      cases hempty
    have heq := hf.eq_of_written hempty hbs
    rw [hplain] at heq
    rw [heq, if_neg (by simp), List.append_nil, readFrames_empty_append hf hempty]
  · obtain ⟨body, rfl⟩ := hbs.exists_eq_append
    rw [List.append_assoc]
    exact readFrames_body_append hf hempty (readBody_append hf hkind hbs rest)

/-- Frames with plain data are read back. -/
theorem readFrames_plain (hfs : ∀ f ∈ fs, f.Whole kind)
    (hbs : WrittenInTurn (Written false) fs bs) (rest : Bytes) :
    readFrames kind false fs.length index (bs ++ rest) = ⟨fs, rest, none⟩ := by
  induction hbs generalizing index with
  | nil => rfl
  | @cons f fs octets bs hfirst _ ih =>
      rw [List.forall_mem_cons] at hfs
      rw [List.length_cons, List.append_assoc,
        readFrames_written_append hfs.1 (by simp) hfirst (by simp), ih hfs.2]
      rfl

/-! ### Reading too early -/

theorem readFrames_zeros (rest : Bytes) :
    readFrames kind shortened (count + 1) index (0 :: 0 :: 0 :: 0 :: rest) =
      (readFrames kind shortened count (index + 1) rest).cons ⟨0, 0, kind, []⟩ := by
  rw [readFrames]
  rfl

/-- Some zeros in front of a frame, which is not void, are taken for a frame of another height. -/
theorem frames_readFrames_ne_of_not_isVoid (hvoid : ¬ f.IsVoid) (k : Nat) (rest : Bytes) :
    (readFrames kind shortened (count + 1) index
      (List.replicate (2 * k + 2) 0 ++ (f.dimensions ++ rest))).frames ≠ f :: fs := by
  obtain ⟨b, c, more, hbytes, hheight⟩ : ∃ b c more,
      List.replicate (2 * k + 2) 0 ++ (f.dimensions ++ rest) = 0 :: 0 :: b :: c :: more ∧
        (f.width = 0 → Bytes.toNat [b, c] = 0) := by
    cases k with
    | zero =>
        refine ⟨UInt8.ofNat f.width, UInt8.ofNat (f.width / 256), _, rfl, fun hwidth => ?_⟩
        rw [hwidth]
        rfl
    | succ k => exact ⟨0, 0, _, by rfl, fun _ => rfl⟩
  rw [hbytes, readFrames]
  simp only [show Bytes.toNat [0, 0] = 0 from rfl, true_or, if_true, FrameList.cons]
  intro hframes
  have hhead := (List.cons.inj hframes).1
  have hwidth : f.width = 0 := by rw [← hhead]
  exact hvoid ⟨hwidth, by rw [← hhead]; exact hheight hwidth⟩

/-- Some zeros in front of a void frame are taken for the frame, and some zeros are left. -/
theorem readFrames_isVoid_behind_zeros (hf : f.Whole kind) (hvoid : f.IsVoid)
    (hbs : f.Written shortened bs) (k : Nat) :
    ∃ k', ∀ count index rest, readFrames kind shortened (count + 1) index
        (List.replicate (2 * k + 2) 0 ++ (bs ++ rest)) =
      (readFrames kind shortened count (index + 1)
        (List.replicate (2 * k' + 2) 0 ++ rest)).cons f := by
  have hmk : SpriteFrame.mk 0 0 kind [] = f := by
    have hmk := hf.mk_eq hvoid.isEmpty
    rwa [hvoid.1, hvoid.2] at hmk
  rw [hf.eq_of_written hvoid.isEmpty hbs, SpriteFrame.dimensions_of_isVoid hvoid]
  have hzeros : ∀ (n : Nat) (tail : Bytes), List.replicate n 0 ++ 0 :: tail =
      (0 : UInt8) :: (List.replicate n 0 ++ tail) := by
    intro n tail
    rw [← List.singleton_append, ← List.append_assoc, ← List.replicate_succ',
      List.replicate_succ, List.cons_append]
  cases shortened with
  | false =>
      refine ⟨k, fun count index rest => ?_⟩
      simp only [Bool.false_eq_true, if_false, List.cons_append, List.nil_append, hzeros,
        readFrames_zeros, hmk]
  | true =>
      refine ⟨k + 1, fun count index rest => ?_⟩
      have hmore : List.replicate (2 * (k + 1) + 2) 0 ++ rest =
          (0 : UInt8) :: 0 :: (List.replicate (2 * k + 2) 0 ++ rest) := rfl
      rw [hmore]
      simp only [if_true, List.cons_append, List.nil_append, hzeros, readFrames_zeros, hmk]

/-- Frames behind some zeros are read back exactly when they are void, and then some zeros are
left behind them. -/
theorem frames_readFrames_behind_zeros_iff (hfs : ∀ f ∈ fs, f.Whole kind)
    (hbs : WrittenInTurn (Written shortened) fs bs) (k index : Nat) (rest : Bytes) :
    let list := readFrames kind shortened fs.length index
      (List.replicate (2 * k + 2) 0 ++ (bs ++ rest))
    (list.frames = fs ↔ ∀ f ∈ fs, f.IsVoid) ∧
      (list.frames = fs → ∃ k', list.rest = List.replicate (2 * k' + 2) 0 ++ rest) := by
  induction hbs generalizing index k with
  | nil => exact ⟨by simp [readFrames], fun _ => ⟨k, rfl⟩⟩
  | @cons f fs first bs hfirst _ ih =>
      rw [List.forall_mem_cons] at hfs
      rw [List.length_cons, List.append_assoc]
      by_cases hvoid : f.IsVoid
      · obtain ⟨k', hread⟩ := readFrames_isVoid_behind_zeros hfs.1 hvoid hfirst k
        obtain ⟨hiff, hrest⟩ := ih hfs.2 k' (index + 1)
        rw [hread]
        simpa only [FrameList.cons, List.cons.injEq, true_and, List.forall_mem_cons, hvoid]
          using And.intro hiff hrest
      · obtain ⟨body, rfl⟩ := hfirst.exists_eq_append
        rw [List.append_assoc]
        have hne : (readFrames kind shortened (fs.length + 1) index (List.replicate (2 * k + 2) 0 ++
            (f.dimensions ++ (body ++ (bs ++ rest))))).frames ≠ f :: fs :=
          frames_readFrames_ne_of_not_isVoid hvoid k _
        exact ⟨iff_of_false hne fun hall => hvoid (hall f List.mem_cons_self),
          fun hframes => absurd hframes hne⟩

/-! ### Both lists of frames -/

/-- Behind an indexed frame without pixels there are only frames without rows and columns. -/
def Steady (frames : List SpriteFrame) : Prop :=
  frames.Pairwise fun f g => f.kind = .indexed → f.isEmpty = true → g.IsVoid

theorem steady_of_forall_isVoid (h : ∀ g ∈ gs, g.IsVoid) : Steady gs :=
  List.pairwise_of_forall_mem_list fun _ _ g hg _ _ => h g hg

theorem steady_of_rgba (h : ∀ g ∈ gs, g.Whole .rgba) : Steady gs := by
  refine List.pairwise_of_forall_mem_list fun f hf _ _ hkind => ?_
  rw [(h f hf).kind_eq] at hkind
  cases hkind

/-- Frames of both kinds are read back exactly when no size of an empty frame gets in the way. -/
theorem frames_readFrames_iff (hfs : ∀ f ∈ fs, f.Whole .indexed) (hgs : ∀ g ∈ gs, g.Whole .rgba)
    (hbs : WrittenInTurn (Written shortened) fs bs) (hrest : WrittenInTurn (Written false) gs rest)
    (index : Nat) :
    ((readFrames .indexed shortened fs.length index (bs ++ rest)).frames = fs ∧
      (readFrames .rgba false gs.length 0
        (readFrames .indexed shortened fs.length index (bs ++ rest)).rest).frames = gs) ↔
      (shortened = true → Steady (fs ++ gs)) := by
  induction hbs generalizing index with
  | nil =>
      have hread : readFrames .rgba false gs.length 0 (rest ++ []) = ⟨gs, [], none⟩ :=
        readFrames_plain hgs hrest []
      rw [List.append_nil] at hread
      simp only [List.length_nil, readFrames, List.nil_append, hread, and_self, true_iff]
      exact fun _ => steady_of_rgba hgs
  | @cons f fs first bs hfirst hmore ih =>
      rw [List.forall_mem_cons] at hfs
      rw [List.length_cons, List.append_assoc]
      by_cases hsteady : shortened = true → f.isEmpty = false
      · rw [readFrames_written_append hfs.1 (fun _ => rfl) hfirst hsteady]
        simp only [FrameList.cons, List.cons.injEq, true_and, ih hfs.2 (index + 1)]
        refine forall_congr' fun hshortened => ?_
        rw [List.cons_append, Steady, Steady, List.pairwise_cons]
        simp [hsteady hshortened]
      · simp only [Classical.not_imp, Bool.not_eq_false] at hsteady
        obtain ⟨rfl, hempty⟩ := hsteady
        -- the size of the frame is taken for the dimensions of the next one
        rw [hfs.1.eq_of_written hempty hfirst, if_pos rfl, List.append_assoc,
          readFrames_empty_append hfs.1 hempty]
        obtain ⟨hiff, hleft⟩ := frames_readFrames_behind_zeros_iff hfs.2 hmore 0 (index + 1) rest
        simp only [FrameList.cons, List.cons.injEq, true_and]
        have hvoid : Steady (f :: fs ++ gs) ↔ (∀ g ∈ fs, g.IsVoid) ∧ ∀ g ∈ gs, g.IsVoid := by
          rw [← List.forall_mem_append, List.cons_append, Steady, List.pairwise_cons]
          exact ⟨fun h g hg => h.1 g hg hfs.1.kind_eq hempty,
            fun h => ⟨fun g hg _ _ => h g hg, steady_of_forall_isVoid h⟩⟩
        rw [forall_const, hvoid, ← hiff]
        refine and_congr_right fun hframes => ?_
        obtain ⟨k, hk⟩ := hleft hframes
        have hbehind := (frames_readFrames_behind_zeros_iff hgs hrest k 0 []).1
        rw [List.append_nil] at hbehind
        have hsize : ([0, 0] : Bytes) = List.replicate (2 * 0 + 2) 0 := rfl
        rw [hsize, hk, hbehind]

/-! ### Files -/

variable {s : Sprite}

/-- What a file can hold: a version from 1.0 to 3.255, at least one frame, not too many of a kind,
all of them whole, and full-colour frames from version 2.0 on only. -/
structure Storable (s : Sprite) : Prop where
  major : 1 ≤ s.version.major ∧ s.version.major ≤ 3
  minor : s.version.minor ≤ 255
  frames : s.frames ≠ []
  indexed_le : s.indexed.length ≤ maxFrames
  rgba_le : s.rgba.length ≤ maxFrames
  rgba_of_old : s.version.atLeast 2 0 = false → s.rgba = []
  whole_indexed : ∀ f ∈ s.indexed, f.Whole .indexed
  whole_rgba : ∀ f ∈ s.rgba, f.Whole .rgba

/-- The octets in front of the frames. -/
def headerOctets (s : Sprite) : Bytes :=
  [0x53, 0x50, UInt8.ofNat s.version.minor, UInt8.ofNat s.version.major] ++
    Bytes.ofNat 2 s.indexed.length ++
      if s.version.atLeast 2 0 then Bytes.ofNat 2 s.rgba.length else []

/-- The octets behind the frames. -/
def paletteOctets (s : Sprite) : Bytes :=
  if s.indexed.isEmpty then [] else s.palette.octets

/-- The octets of a file. From version 2.1 on the data of indexed frames is shortened. -/
def Written (s : Sprite) (bs : Bytes) : Prop :=
  ∃ indexed rgba,
    WrittenInTurn (SpriteFrame.Written (s.version.atLeast 2 1)) s.indexed indexed ∧
    WrittenInTurn (SpriteFrame.Written false) s.rgba rgba ∧
    bs = s.headerOctets ++ ((indexed ++ rgba) ++ s.paletteOctets)

/-- A sprite as it should be read back: no opacity is stored, and without indexed frames there is
no palette. -/
def restored (s : Sprite) : Sprite :=
  { s with palette :=
      if s.indexed.isEmpty then .grey else s.palette.mapColors Palette.opaqueBut0 }

theorem decodeHeader_append (hs : s.Storable) (body : Bytes) :
    decodeHeader (s.headerOctets ++ body) =
      .ok ⟨s.version, s.indexed.length, s.rgba.length, s.headerOctets.length⟩ := by
  have hmax : maxFrames < Nat.pow 256 2 := by decide
  have hindexed : Bytes.toNat
      [UInt8.ofNat s.indexed.length, UInt8.ofNat (s.indexed.length / 256)] = s.indexed.length :=
    Bytes.toNat_ofNat (Nat.lt_of_le_of_lt hs.indexed_le hmax)
  have hrgba : Bytes.toNat
      [UInt8.ofNat s.rgba.length, UInt8.ofNat (s.rgba.length / 256)] = s.rgba.length :=
    Bytes.toNat_ofNat (Nat.lt_of_le_of_lt hs.rgba_le hmax)
  have hmajor : (UInt8.ofNat s.version.major).toNat = s.version.major :=
    UInt8.toNat_ofNat_of_lt' (Nat.lt_of_le_of_lt hs.major.2 (by decide))
  have hminor : (UInt8.ofNat s.version.minor).toNat = s.version.minor :=
    UInt8.toNat_ofNat_of_lt' (Nat.lt_of_le_of_lt hs.minor (by decide))
  have hfirst : s.version.major ≠ 0 := Nat.one_le_iff_ne_zero.mp hs.major.1
  have hlast : ¬ 3 < s.version.major := Nat.not_lt.mpr hs.major.2
  have hfew : ¬ maxFrames < s.indexed.length := Nat.not_lt.mpr hs.indexed_le
  have hcount : ¬ maxFrames < max s.indexed.length s.rgba.length :=
    Nat.not_lt.mpr (Nat.max_le.mpr ⟨hs.indexed_le, hs.rgba_le⟩)
  rw [headerOctets, Bytes.ofNat_two]
  by_cases hnew : s.version.atLeast 2 0 = true
  · rw [if_pos hnew, Bytes.ofNat_two]
    simp only [List.cons_append, List.nil_append, decodeHeader, hmajor, hminor, hindexed, hrgba]
    simp [hfirst, hlast, hnew, hcount, bind, Except.bind, pure, Except.pure]
  · have hnone : s.rgba.length = 0 := by
      rw [hs.rgba_of_old (by simpa using hnew), List.length_nil]
    rw [if_neg hnew]
    simp only [List.cons_append, List.nil_append, decodeHeader, hmajor, hminor, hindexed, hnone]
    simp [hfirst, hlast, hnew, hfew, bind, Except.bind, pure, Except.pure]

theorem splitPalette_append (header : Header) (hcount : header.indexed = s.indexed.length)
    (octets : Bytes) :
    splitPalette header (octets ++ s.paletteOctets) = (octets, s.restored.palette) := by
  rw [splitPalette, paletteOctets, restored, hcount]
  cases hindexed : s.indexed with
  | nil => simp
  | cons f fs =>
      have hsize : (octets ++ s.palette.octets).length - Palette.size = octets.length := by
        rw [List.length_append, Palette.length_octets, Nat.add_sub_cancel]
      have hlong : Palette.size ≤ (octets ++ s.palette.octets).length := by
        rw [List.length_append, Palette.length_octets]
        omega
      simp only [List.isEmpty_cons, Bool.false_eq_true, if_false, List.length_cons, hlong, hsize,
        List.take_left, List.drop_left, Palette.ofTable_octets]
      rfl

/-- A sprite that is written down is read back exactly when its frames are not shortened, or when
nothing but frames without rows and columns stands behind an indexed frame without pixels. -/
theorem decode_written_iff {bs : Bytes} (hs : s.Storable) (hbs : s.Written bs) :
    (decode bs).2 = .ok s.restored ↔ (s.version.atLeast 2 1 = true → Steady s.frames) := by
  obtain ⟨indexed, rgba, hindexed, hrgba, rfl⟩ := hbs
  have hframes := frames_readFrames_iff hs.whole_indexed hs.whole_rgba hindexed hrgba 0
  rw [frames, ← hframes, decode, decodeHeader_append hs]
  simp only [List.drop_left, splitPalette_append ⟨s.version, s.indexed.length, s.rgba.length,
    s.headerOctets.length⟩ rfl (indexed ++ rgba)]
  split
  next hnone =>
    simp only [Bool.and_eq_true, List.isEmpty_iff] at hnone
    refine iff_of_false (by simp) fun hread => hs.frames ?_
    rw [frames, ← hread.1, ← hread.2, hnone.1, hnone.2, List.append_nil]
  next =>
    simp only [Except.ok.injEq, restored, Sprite.mk.injEq, true_and, and_true]

/-- A sprite with an indexed frame without pixels, and only one without rows and columns behind
it. -/
def emptyBehind : Sprite where
  version := ⟨2, 1⟩
  indexed := [⟨2, 1, .indexed, [0, 5]⟩, ⟨3, 0, .indexed, []⟩]
  rgba := [⟨0, 0, .rgba, []⟩]
  palette := .grey

/-- The octets of its frames. -/
def emptyBehindFrames : Bytes :=
  [2, 0, 1, 0, 3, 0, 0, 1, 5] ++ [3, 0, 0, 0, 0, 0] ++ [0, 0, 0, 0]

theorem decode_written_iff_of_emptyBehind :
    emptyBehind.Storable ∧
      emptyBehind.Written
        (emptyBehind.headerOctets ++ (emptyBehindFrames ++ emptyBehind.paletteOctets)) ∧
      Steady emptyBehind.frames ∧
      (decode (emptyBehind.headerOctets ++ (emptyBehindFrames ++ emptyBehind.paletteOctets))).2 =
        .ok emptyBehind.restored := by
  have hstorable : emptyBehind.Storable := by
    refine ⟨by decide, by decide, by decide, by decide, by decide, by decide, ?_, ?_⟩
    · intro f hf
      simp only [emptyBehind, List.mem_cons, List.not_mem_nil, or_false] at hf
      rcases hf with rfl | rfl <;> exact ⟨rfl, by decide, by decide, rfl⟩
    · intro f hf
      simp only [emptyBehind, List.mem_cons, List.not_mem_nil, or_false] at hf
      rcases hf with rfl
      exact ⟨rfl, by decide, by decide, rfl⟩
  have hwritten : emptyBehind.Written
      (emptyBehind.headerOctets ++ (emptyBehindFrames ++ emptyBehind.paletteOctets)) := by
    have hrun : RunLength.Encodes [0, 1, 5] [0, 5] :=
      .run 1 (.literal 5 (by decide) .nil)
    exact ⟨[2, 0, 1, 0, 3, 0, 0, 1, 5] ++ ([3, 0, 0, 0, 0, 0] ++ []), [0, 0, 0, 0] ++ [],
      .cons ⟨[0, 1, 5], hrun, by decide, by decide, rfl⟩
        (.cons ⟨[], .nil, by decide, fun _ => rfl, rfl⟩ .nil),
      .cons rfl .nil, rfl⟩
  have hsteady : Steady emptyBehind.frames := by
    simp [Steady, frames, emptyBehind, SpriteFrame.isEmpty, SpriteFrame.IsVoid]
  exact ⟨hstorable, hwritten, hsteady,
    (decode_written_iff hstorable hwritten).mpr fun _ => hsteady⟩

/-- A sprite with an indexed frame of one pixel behind one without pixels. -/
def emptyBefore : Sprite where
  version := ⟨2, 1⟩
  indexed := [⟨0, 0, .indexed, []⟩, ⟨1, 1, .indexed, [7]⟩]
  rgba := []
  palette := .grey

/-- The size of the frame without pixels is taken for the width of the frame behind it, whose
pixel is lost. -/
theorem decode_loses_pixel_of_emptyBefore :
    let bs := emptyBefore.headerOctets ++
      (([0, 0, 0, 0, 0, 0] ++ [1, 0, 1, 0, 1, 0, 7]) ++ emptyBefore.paletteOctets)
    emptyBefore.Written bs ∧
      ((decode bs).2.toOption.map fun s => s.indexed.map fun f => (f.width, f.height, f.data)) =
        some [(0, 0, []), (0, 1, [])] ∧
      (decode bs).2 ≠ .ok emptyBefore.restored := by
  have hread : ((decode (emptyBefore.headerOctets ++
      (([0, 0, 0, 0, 0, 0] ++ [1, 0, 1, 0, 1, 0, 7]) ++ emptyBefore.paletteOctets))).2.toOption.map
        fun s => s.indexed.map fun f => (f.width, f.height, f.data)) =
      some [(0, 0, []), (0, 1, [])] := by
    decide +kernel
  have hpixel : RunLength.Encodes [7] [7] := .literal 7 (by decide) .nil
  refine ⟨⟨[0, 0, 0, 0, 0, 0] ++ ([1, 0, 1, 0, 1, 0, 7] ++ []), [],
    .cons ⟨[], .nil, by decide, fun _ => rfl, rfl⟩
      (.cons ⟨[7], hpixel, by decide, by decide, rfl⟩ .nil), .nil, rfl⟩, hread, fun h => ?_⟩
  rw [h] at hread
  exact absurd hread (by decide)

end Sprite

end ArchiveExport
