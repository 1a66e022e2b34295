import ArchiveExport.Proofs.Data.OrderedMap
import ArchiveExport.Proofs.Json.Layout
import ArchiveExport.Proofs.Json.Validity
import ArchiveExport.Proofs.Number.Decimal
import ArchiveExport.Proofs.Resource.Palette
import ArchiveExport.Proofs.Resource.SpriteOctets
import ArchiveExport.Proofs.Resource.World
import ArchiveExport.Resource.Document

/-!
# Documents of decoded resources

Whatever octets a resource was decoded from, its document can be written and read back: its integers
come from fields of at most 32 bits or count what the octets hold, its real numbers are in normal
form, and no object has two members of one name.
-/

namespace ArchiveExport

open Json (Legible)

namespace Binary64

theorem canonical_ofInt (n : Int) : (ofInt n).Canonical :=
  canonical_ofQuotient _ _ Nat.one_pos

theorem canonical_infinity (negative : Bool) : (infinity negative).Canonical :=
  trivial

theorem canonical_mul (x y : Binary64) : (x.mul y).Canonical := by
  have hunbounded (a b : Bool) (s : Nat) :
      (if s = 0 then nan else infinity (a != b)).Canonical := by
    split <;> trivial
  match x, y with
  | .nan, _ | .infinity _, .nan | .finite .., .nan => trivial
  | .infinity _, .infinity _ => trivial
  | .infinity a, .finite b s _ | .finite b s _, .infinity a => exact hunbounded a b s
  | .finite _ s e, .finite _ t f =>
    exact canonical_ofQuotient _ _ (Nat.mul_pos (ratio_pos s e) (ratio_pos t f))

end Binary64

namespace Json

variable {α : Type} {f : α → Json} {xs : List α} {n : Nat}

theorem legible_nat (h : n < 2 ^ 64) : Legible (.nat n : Json) :=
  legible_integer h

theorem legible_octet (b : UInt8) : Legible (.nat b.toNat : Json) :=
  legible_nat (Nat.lt_trans b.toNat_lt (by decide))

theorem legible_int32 (n : Int32) : Legible (.integer n.toInt : Json) := by
  have hlow := n.le_toInt
  have hhigh := n.toInt_lt
  refine legible_integer ?_
  omega

theorem legible_arrayOf (h : ∀ x ∈ xs, Legible (f x)) : Legible (.arrayOf f xs) := by
  refine .array fun j hj => ?_
  obtain ⟨x, hx, rfl⟩ := List.mem_map.mp hj
  exact h x hx

end Json

open Json

theorem Bytes.legible_document {bs : Bytes} (h : bs.length < 2 ^ 64) : bs.document.Legible := by
  refine legible_object (by simp) ?_
  simp only [List.forall_mem_cons]
  exact ⟨legible_nat h, legible_text _, List.forall_mem_nil _⟩

/-- The numbers of a version that was read are octets. -/
def Version.IsStored (v : Version) : Prop :=
  v.major < 256 ∧ v.minor < 256

theorem Version.IsStored.legible_document {v : Version} (h : v.IsStored) :
    v.document.Legible := by
  refine .array ?_
  simp only [List.forall_mem_cons]
  exact ⟨legible_nat (Nat.lt_trans h.1 (by decide)), legible_nat (Nat.lt_trans h.2 (by decide)),
    List.forall_mem_nil _⟩

/-! ### Palettes -/

theorem Palette.legible_document (p : Palette) : p.document.Legible := by
  have hcolors : Legible (.arrayOf Color.document p.colors.toList) := by
    refine legible_arrayOf fun c _ => .array fun j hj => ?_
    obtain ⟨b, -, rfl⟩ := List.mem_map.mp hj
    exact legible_octet b
  refine legible_object (by simp) ?_
  simp only [List.forall_mem_cons]
  exact ⟨hcolors, List.forall_mem_nil _⟩

/-! ### Sprites -/

/-- A frame whose sides were read from two octets each, with no more data than its pixels take. -/
structure SpriteFrame.IsStored (f : SpriteFrame) : Prop where
  width : f.width < 2 ^ 16
  height : f.height < 2 ^ 16
  data : f.data.length ≤ f.width * f.height * 4

theorem SpriteFrame.IsStored.legible_document {f : SpriteFrame} (h : f.IsStored) :
    f.document.Legible := by
  have hpixels : f.width * f.height < 2 ^ 16 * 2 ^ 16 :=
    Nat.mul_lt_mul'' h.width h.height
  have hdata := h.data
  refine legible_object (by simp) ?_
  simp only [List.forall_mem_cons]
  exact ⟨legible_nat (Nat.lt_trans h.width (by decide)),
    legible_nat (Nat.lt_trans h.height (by decide)), legible_text _,
    Bytes.legible_document (by omega), List.forall_mem_nil _⟩

namespace Sprite

variable {kind : FrameKind} {shortened : Bool} {bs rest : Bytes} {s : Sprite}

theorem length_readBody_le {pixels : Nat} {data : Bytes}
    (h : readBody kind shortened pixels bs = some (data, rest)) : data.length ≤ pixels * 4 := by
  unfold readBody at h
  split at h
  · split at h
    · cases h
      rw [RunLength.decompress, Bytes.length_fit]
      omega
    · cases h
  · cases h
    have hsize : kind.pixelSize ≤ 4 := by cases kind <;> decide
    have hpixels := Nat.mul_le_mul_left pixels hsize
    rw [List.length_take]
    omega

theorem toNat_pair_lt (a b : UInt8) : Bytes.toNat [a, b] < 2 ^ 16 :=
  Nat.lt_of_lt_of_le (Bytes.toNat_lt [a, b]) (by simp)

theorem isStored_readFrames (count index : Nat) (bs : Bytes) :
    ∀ f ∈ (readFrames kind shortened count index bs).frames, f.IsStored := by
  fun_induction readFrames kind shortened count index bs with
  | case1 => exact List.forall_mem_nil _
  | case2 index count w0 w1 h0 h1 rest width height hempty ih =>
      refine List.forall_mem_cons.mpr ⟨?_, ih⟩
      exact ⟨toNat_pair_lt w0 w1, toNat_pair_lt h0 h1, Nat.zero_le _⟩
  | case3 index count w0 w1 h0 h1 rest width height hempty data rest' hbody ih =>
      refine List.forall_mem_cons.mpr ⟨?_, ih⟩
      exact ⟨toNat_pair_lt w0 w1, toNat_pair_lt h0 h1, length_readBody_le hbody⟩
  | case4 index count w0 w1 h0 h1 rest width height hempty hbody =>
      refine List.forall_mem_cons.mpr ⟨?_, List.forall_mem_nil _⟩
      exact ⟨toNat_pair_lt w0 w1, toNat_pair_lt h0 h1, Nat.zero_le _⟩
  | case5 => exact List.forall_mem_nil _

theorem isStored_version {header : Header} (h : decodeHeader bs = .ok header) :
    header.version.IsStored := by
  have hfield (offset : Nat) : Bytes.toNat (bs.slice offset 1) < 256 := by
    have hlength : (bs.slice offset 1).length ≤ 1 := List.length_take_le _ _
    exact Nat.lt_of_lt_of_le (Bytes.toNat_lt _) (Nat.pow_le_pow_right (by decide) hlength)
  rw [(heads_of_decodeHeader h).version_eq]
  exact ⟨hfield 3, hfield 2⟩

/-- The document of a sprite that was decoded. -/
theorem legible_document_of_decode (h : (decode bs).2 = .ok s) : s.document.Legible := by
  have hs : s.version.IsStored ∧ (∀ f ∈ s.indexed, f.IsStored) ∧ ∀ f ∈ s.rgba, f.IsStored := by
    unfold decode at h
    split at h
    · cases h
    next header hheader =>
      simp only at h
      split at h
      · cases h
      · cases h
        exact ⟨isStored_version hheader, isStored_readFrames _ _ _, isStored_readFrames _ _ _⟩
  obtain ⟨hversion, hindexed, hrgba⟩ := hs
  refine legible_object (by simp) ?_
  simp only [List.forall_mem_cons]
  refine ⟨hversion.legible_document, legible_arrayOf fun f hf => (hindexed f hf).legible_document,
    legible_arrayOf fun f hf => (hrgba f hf).legible_document, Bytes.legible_document ?_,
    List.forall_mem_nil _⟩
  rw [Palette.length_octets]
  decide

end Sprite

/-! ### Animations -/

theorem Layer.legible_document (l : Layer) : l.document.Legible := by
  refine legible_object (by simp) ?_
  simp only [List.forall_mem_cons]
  exact ⟨legible_int32 _, legible_int32 _, legible_int32 _, .bool _,
    .real l.scaleX.canonical_toBinary64, .real l.scaleY.canonical_toBinary64, legible_int32 _,
    legible_int32 _, legible_int32 _, legible_int32 _,
    legible_arrayOf fun b _ => legible_octet b, List.forall_mem_nil _⟩

theorem Anchor.legible_document (a : Anchor) : a.document.Legible := by
  refine legible_object (by simp) ?_
  simp only [List.forall_mem_cons]
  exact ⟨legible_int32 _, legible_int32 _, legible_int32 _, List.forall_mem_nil _⟩

theorem AnimationFrame.legible_document (f : AnimationFrame) {delay : Binary64}
    (h : delay.Canonical) : (f.document delay).Legible := by
  refine legible_object (by simp) ?_
  simp only [List.forall_mem_cons]
  exact ⟨legible_arrayOf fun l _ => l.legible_document, legible_int32 _,
    legible_arrayOf fun a _ => a.legible_document, .real h, List.forall_mem_nil _⟩

namespace Animation

variable {bs : Bytes} {a : Animation}

theorem canonical_interval (speed : Binary32) : (interval speed).Canonical := by
  unfold interval
  simp only
  split
  · exact Binary64.canonical_mul _ _
  · exact Binary64.canonical_ofInt 25

theorem canonical_readIntervals (speed : Binary32) (actions : List Action) (r : Reader) :
    ∀ x ∈ readIntervals speed actions r, x.Canonical := by
  induction actions generalizing speed r with
  | nil => exact List.forall_mem_nil _
  | cons action actions ih =>
      rw [readIntervals]
      split
      · exact List.forall_mem_cons.mpr ⟨canonical_interval _, ih _ _⟩
      · exact List.forall_mem_cons.mpr ⟨canonical_interval _, ih _ _⟩

theorem canonical_intervalsFor (version : Version) (actions : List Action) (r : Reader) :
    ∀ x ∈ intervalsFor version actions r, x.Canonical := by
  unfold intervalsFor
  split
  · exact canonical_readIntervals .one actions r
  · intro x hx
    obtain ⟨action, -, rfl⟩ := List.mem_map.mp hx
    exact Binary64.canonical_ofInt 150

theorem isStored_version {version : Version} {count : Nat}
    (h : decodeHeader bs = .ok (version, count)) : version.IsStored := by
  match bs with
  | [] | [_] | [_, _] | [_, _, _] | [_, _, _, _] | [_, _, _, _, _] => cases h
  | s0 :: s1 :: minor :: major :: c0 :: c1 :: rest =>
    unfold decodeHeader at h
    simp only [bind, Except.bind, pure, Except.pure, throw, throwThe, MonadExceptOf.throw] at h
    split_ifs at h
    cases h
    exact ⟨major.toNat_lt, minor.toNat_lt⟩

/-- The document of an animation that was decoded. -/
theorem legible_document_of_decode (h : decode bs = .ok a) : a.document.Legible := by
  have ha : a.version.IsStored ∧ ∀ x ∈ a.intervals, x.Canonical := by
    unfold decode at h
    cases hheader : decodeHeader bs with
    | error fault =>
        rw [hheader] at h
        cases h
    | ok header =>
        rw [hheader] at h
        simp only [bind, Except.bind, pure, Except.pure, throw, throwThe,
          MonadExceptOf.throw] at h
        split_ifs at h
        cases h
        exact ⟨isStored_version hheader, canonical_intervalsFor _ _ _⟩
  obtain ⟨hversion, hintervals⟩ := ha
  have hactions : ∀ timed ∈ a.timedActions, timed.2.Canonical := fun timed htimed =>
    hintervals _ (List.of_mem_zip htimed).2
  refine legible_object (by simp) ?_
  simp only [List.forall_mem_cons]
  refine ⟨hversion.legible_document, legible_arrayOf fun timed htimed => ?_,
    legible_arrayOf fun name _ => ?_, legible_arrayOf fun x hx => .real (hintervals x hx),
    List.forall_mem_nil _⟩
  · refine legible_object (by simp) ?_
    simp only [List.forall_mem_cons]
    exact ⟨legible_arrayOf fun f _ => f.legible_document (hactions timed htimed),
      List.forall_mem_nil _⟩
  · refine legible_object (by simp) ?_
    simp only [List.forall_mem_cons]
    exact ⟨legible_text name, List.forall_mem_nil _⟩

end Animation

/-! ### Altitude maps -/

namespace AltitudeMap

variable {bs : Bytes} {m : AltitudeMap} {n : Nat}

/-- A summary of `n` cells: its heights are in normal form, and it has each terrain once and counts
no more cells than there are. -/
structure Sums (m : AltitudeMap) (n : Nat) : Prop where
  lowest : m.lowest.Canonical
  highest : m.highest.Canonical
  names : m.terrain.keys.Nodup
  counts : ∀ e ∈ m.terrain.entries, e.2 ≤ n

theorem sums_empty {version : Version} {width height : Nat} {lowest highest : Binary64}
    (hlowest : lowest.Canonical) (hhighest : highest.Canonical) :
    Sums ⟨version, width, height, lowest, highest, .empty⟩ 0 :=
  ⟨hlowest, hhighest, List.nodup_nil, List.forall_mem_nil _⟩

theorem canonical_foldl {choose : Binary64 → Binary64 → Binary64}
    (hchoose : ∀ a b, choose a b = a ∨ choose a b = b) {start : Binary64} {xs : List Binary64}
    (hstart : start.Canonical) (hxs : ∀ x ∈ xs, x.Canonical) :
    (xs.foldl choose start).Canonical := by
  induction xs generalizing start with
  | nil => exact hstart
  | cons x xs ih =>
      rw [List.forall_mem_cons] at hxs
      refine ih ?_ hxs.2
      rcases hchoose start x with h | h
      · rw [h]
        exact hstart
      · rw [h]
        exact hxs.1

/-- One more cell is summed up. -/
theorem Sums.addCell (h : m.Sums n) (cell : Cell) : (m.addCell cell).Sums (n + 1) where
  lowest := by
    refine canonical_foldl (fun a b => ?_) h.lowest fun x hx => ?_
    · unfold lower
      split
      · exact Or.inr rfl
      · exact Or.inl rfl
    · obtain ⟨height, -, rfl⟩ := List.mem_map.mp hx
      exact height.canonical_toBinary64
  highest := by
    refine canonical_foldl (fun a b => ?_) h.highest fun x hx => ?_
    · unfold higher
      split
      · exact Or.inr rfl
      · exact Or.inl rfl
    · obtain ⟨height, -, rfl⟩ := List.mem_map.mp hx
      exact height.canonical_toBinary64
  names := OrderedMap.nodup_keys_alter _ _ _ h.names
  counts := by
    intro e he
    simp only [AltitudeMap.addCell, OrderedMap.alter] at he
    split at he
    · obtain ⟨old, hold, rfl⟩ := List.mem_map.mp he
      have hle := h.counts old hold
      split
      · exact Nat.succ_le_succ hle
      · exact Nat.le_succ_of_le hle
    · rcases List.mem_append.mp he with hold | hnew
      · exact Nat.le_succ_of_le (h.counts e hold)
      · rw [List.mem_singleton.mp hnew]
        exact Nat.succ_le_succ (Nat.zero_le n)

theorem Sums.foldl_addCell (h : m.Sums n) (cells : List Cell) :
    (cells.foldl AltitudeMap.addCell m).Sums (n + cells.length) := by
  induction cells generalizing m n with
  | nil => exact h
  | cons cell cells ih =>
      have hrest := ih (h.addCell cell)
      rwa [Nat.add_right_comm, Nat.add_assoc] at hrest

theorem length_readCells (count : Nat) (bs : Bytes) (done : List Cell) :
    (readCells count bs done).length = done.length + count := by
  induction count generalizing bs done with
  | zero => exact List.length_reverse
  | succ count ih =>
      rw [readCells, ih, List.length_cons]
      omega

theorem sides_foldl_addCell (cells : List Cell) :
    (cells.foldl addCell m).width = m.width ∧ (cells.foldl addCell m).height = m.height := by
  induction cells generalizing m with
  | nil => exact ⟨rfl, rfl⟩
  | cons cell cells ih => exact ih

theorem Sums.legible_document (h : m.Sums n) (hn : n < 2 ^ 64) (hwidth : m.width < 2 ^ 64)
    (hheight : m.height < 2 ^ 64) : m.document.Legible := by
  have hterrain : Legible (.object (m.terrain.entries.map fun e => (e.1, .nat e.2))) := by
    refine legible_object ?_ fun e he => ?_
    · rw [List.map_map]
      exact h.names
    · obtain ⟨old, hold, rfl⟩ := List.mem_map.mp he
      exact legible_nat (Nat.lt_of_le_of_lt (h.counts old hold) hn)
  refine legible_object (by simp) ?_
  simp only [List.forall_mem_cons]
  exact ⟨legible_text _, legible_nat hwidth, legible_nat hheight, .real h.lowest, .real h.highest,
    hterrain, List.forall_mem_nil _⟩

/-- The document of an altitude map that was decoded. -/
theorem legible_document_of_decode (h : decode bs = .ok m) : m.document.Legible := by
  have hside (n : Int32) : n.toInt.toNat < 2 ^ 31 := by
    have hhigh := n.toInt_lt
    omega
  unfold decode at h
  simp only [bind, Except.bind, pure, Except.pure, throw, throwThe, MonadExceptOf.throw] at h
  have hwidth := hside (Layout.int32.decode (bs.slice 6 4))
  have hheight := hside (Layout.int32.decode (bs.slice 10 4))
  have hcount := Nat.mul_lt_mul'' hwidth hheight
  split_ifs at h
  · cases h
    have hzero := Binary64.canonical_zero false
    exact (sums_empty hzero hzero).legible_document (by decide)
      (Nat.lt_trans hwidth (by decide)) (Nat.lt_trans hheight (by decide))
  · cases h
    have hlowest := Binary64.canonical_infinity false
    have hhighest := Binary64.canonical_infinity true
    refine ((sums_empty hlowest hhighest).foldl_addCell _).legible_document ?_ ?_ ?_
    · rw [length_readCells, List.length_nil]
      omega
    · rw [(sides_foldl_addCell _).1]
      exact Nat.lt_trans hwidth (by decide)
    · rw [(sides_foldl_addCell _).2]
      exact Nat.lt_trans hheight (by decide)

end AltitudeMap

/-! ### World resources -/

namespace Reading

variable {α β : Type} {read : Reading α} {next : α → Reading β} {post : α → Prop}
  {goal : β → Prop}

/-- The condition holds of whatever is read. -/
def Yields (read : Reading α) (post : α → Prop) : Prop :=
  ∀ r a r', read r = .ok (a, r') → post a

theorem yields_pure {a : α} (h : post a) : Yields (pure a) post := by
  intro r b r' heq
  cases heq
  exact h

theorem Yields.bind (h : Yields read post) (hnext : ∀ a, post a → Yields (next a) goal) :
    Yields (read >>= next) goal := by
  intro r b r' heq
  cases hread : read r with
  | error fault =>
      rw [bind_of_error hread] at heq
      cases heq
  | ok result =>
      obtain ⟨a, behind⟩ := result
      rw [bind_of_ok hread] at heq
      exact hnext a (h r a behind hread) behind b r' heq

theorem yields_any (read : Reading α) : Yields read fun _ => True :=
  fun _ _ _ _ => trivial

theorem Yields.map {f : α → β} (h : ∀ a, goal (f a)) : Yields (read >>= fun a => pure (f a)) goal :=
  (yields_any read).bind fun a _ => yields_pure (h a)

theorem Yields.ifStored {c : Bool} {d : α} (h : Yields read post) (hd : post d) :
    Yields (ifStored c read d) post := by
  cases c with
  | false => exact yields_pure hd
  | true => exact h

end Reading

open Reading

namespace World

variable {bs : Bytes} {w : World}

theorem yields_readInt : Yields readInt fun n => Legible (.integer n : Json) :=
  .map legible_int32

theorem yields_readReal : Yields readReal Binary64.Canonical :=
  .map Binary32.canonical_toBinary64

theorem yields_readReals : Yields readReals fun xs => Legible (.arrayOf .real xs : Json) := by
  refine (yields_any _).bind fun ⟨a, b, c⟩ _ => yields_pure (legible_arrayOf ?_)
  simp only [List.forall_mem_cons]
  exact ⟨.real a.canonical_toBinary64, .real b.canonical_toBinary64,
    .real c.canonical_toBinary64, List.forall_mem_nil _⟩

theorem yields_readBuildNumber (version : Version) :
    Yields (readBuildNumber version) fun n => Legible (.nat n : Json) := by
  unfold readBuildNumber
  split_ifs
  · refine (yields_any _).bind fun n _ => ?_
    exact .map fun _ => legible_nat (Nat.lt_trans n.toNat_lt (by decide))
  · exact .map legible_octet
  · exact yields_pure (legible_nat (by decide))

theorem yields_readWater (version : Version) :
    Yields (readWater version) fun w => Legible (.orNull Water.document w) := by
  have hwaves : Yields Water.readWaves fun p =>
      Legible (.integer p.1 : Json) ∧ p.2.1.Canonical ∧ p.2.2.1.Canonical ∧ p.2.2.2.Canonical :=
    (yields_any _).bind fun ⟨type, height, speed, pitch⟩ _ => yields_pure
      ⟨legible_int32 type, height.canonical_toBinary64, speed.canonical_toBinary64,
        pitch.canonical_toBinary64⟩
  have hcalm : Legible (.integer 0 : Json) ∧ (Binary64.ofInt 1).Canonical ∧
      (Binary64.ofInt 2).Canonical ∧ (Binary64.ofInt 50).Canonical :=
    ⟨legible_integer (by decide), Binary64.canonical_ofInt 1, Binary64.canonical_ofInt 2,
      Binary64.canonical_ofInt 50⟩
  have hwater : Yields (Water.read version) fun w => w.document.Legible := by
    refine yields_readReal.bind fun level hlevel => ?_
    refine (hwaves.ifStored hcalm).bind fun waves ⟨htype, hheight, hspeed, hpitch⟩ => ?_
    refine (yields_readInt.ifStored (legible_integer (by decide))).bind fun speed hanimation => ?_
    refine yields_pure (legible_object (by simp) ?_)
    simp only [List.forall_mem_cons]
    exact ⟨.real hlevel, htype, .real hheight, .real hspeed, .real hpitch, hanimation,
      List.forall_mem_nil _⟩
  have hsome : Yields (Water.read version >>= fun w => pure (some w)) fun w =>
      Legible (.orNull Water.document w) := hwater.bind fun w hw => yields_pure hw
  rw [readWater_eq]
  exact hsome.ifStored .null

theorem yields_readLight (version : Version) :
    Yields (readLight version) fun l => l.document.Legible := by
  have hlegible {l : Light} (hlongitude : Legible (.integer l.longitude : Json))
      (hlatitude : Legible (.integer l.latitude : Json))
      (hdiffuse : Legible (.arrayOf .real l.diffuse : Json))
      (hambient : Legible (.arrayOf .real l.ambient : Json)) (hshadow : l.shadowOpacity.Canonical) :
      l.document.Legible := by
    refine legible_object (by simp) ?_
    simp only [List.forall_mem_cons]
    exact ⟨hlongitude, hlatitude, hdiffuse, hambient, .real hshadow, List.forall_mem_nil _⟩
  have hquotient (num den : Nat) (hden : 0 < den) : (Binary64.ofQuotient false num den).Canonical :=
    Binary64.canonical_ofQuotient false num hden
  have hthree {x : Binary64} (hx : x.Canonical) : Legible (.arrayOf .real [x, x, x] : Json) := by
    refine legible_arrayOf ?_
    simp only [List.forall_mem_cons]
    exact ⟨.real hx, .real hx, .real hx, List.forall_mem_nil _⟩
  unfold readLight
  split
  · exact yields_pure (hlegible (legible_integer (by decide)) (legible_integer (by decide))
      (hthree (Binary64.canonical_ofInt 1)) (hthree (hquotient 3 10 (by decide)))
      (hquotient 1 2 (by decide)))
  · refine (yields_any _).bind fun ⟨longitude, latitude⟩ _ => ?_
    refine yields_readReals.bind fun diffuse hdiffuse => ?_
    refine yields_readReals.bind fun ambient hambient => ?_
    simp only
    split
    · refine yields_readReal.bind fun shadow hshadow => ?_
      exact yields_pure (hlegible (legible_int32 _) (legible_int32 _) hdiffuse hambient hshadow)
    · exact yields_pure (hlegible (legible_int32 _) (legible_int32 _) hdiffuse hambient
        (hquotient 1 2 (by decide)))

theorem yields_readBounds (version : Version) :
    Yields (readBounds version) fun bounds => Legible (.arrayOf .integer bounds : Json) := by
  unfold readBounds
  split_ifs
  · refine yields_pure (legible_arrayOf ?_)
    simp only [standardBounds, List.forall_mem_cons]
    exact ⟨legible_integer (by decide), legible_integer (by decide), legible_integer (by decide),
      legible_integer (by decide), List.forall_mem_nil _⟩
  · refine (yields_any _).bind fun ⟨top, bottom, left, right⟩ _ =>
      yields_pure (legible_arrayOf ?_)
    simp only [List.forall_mem_cons]
    exact ⟨legible_int32 top, legible_int32 bottom, legible_int32 left, legible_int32 right,
      List.forall_mem_nil _⟩

theorem yields_readFields (version : Version) :
    Yields (readFields version) fun w => w.document.Legible := by
  rw [readFields_eq]
  refine (yields_readBuildNumber version).bind fun build hbuild => ?_
  refine (yields_any _).bind fun ini _ => (yields_any _).bind fun ground _ => ?_
  refine (yields_any _).bind fun altitude _ => (yields_any _).bind fun source _ => ?_
  refine (yields_readWater version).bind fun water hwater => ?_
  refine (yields_readLight version).bind fun light hlight => ?_
  refine (yields_readBounds version).bind fun bounds hbounds => ?_
  refine yields_readInt.bind fun objects hobjects => yields_pure ?_
  refine legible_object (by simp) ?_
  simp only [List.forall_mem_cons]
  exact ⟨legible_text _, hbuild, legible_text _, legible_text _, legible_text _, legible_text _,
    hwater, hlight, hbounds, hobjects, List.forall_mem_nil _⟩

/-- The document of a world resource that was decoded. -/
theorem legible_document_of_decode (h : decode bs = .ok w) : w.document.Legible := by
  unfold decode at h
  split at h
  · split at h
    next hread =>
      cases h
      exact yields_readFields _ _ _ _ hread
    next => cases h
  · cases h

end World

/-! ### Resources -/

namespace Resource

variable {format : Format} {bs : Bytes} {warnings : List Sprite.Warning} {resource : Resource}

/-- A resource that was made of what a decoder gives was made of a value that it gives. -/
theorem exists_of_made {ε α : Type} {result : Except ε α} {fault : ε → Fault}
    {make : α → Resource} {told : List Sprite.Warning}
    (h : (told, (result.mapError fault).map make) = (warnings, .ok resource)) :
    ∃ value, result = .ok value ∧ resource = make value := by
  cases result with
  | error fault => cases h
  | ok value =>
      cases h
      exact ⟨value, rfl, rfl⟩

/-- The document of a resource of any format but one. -/
theorem legible_document_of_decode (hformat : format ≠ .luaChunk)
    (h : decode format bs = (warnings, .ok resource)) : resource.document.Legible := by
  cases format with
  | palette =>
      obtain ⟨p, -, rfl⟩ := exists_of_made h
      exact p.legible_document
  | sprite =>
      obtain ⟨s, hs, rfl⟩ := exists_of_made h
      exact Sprite.legible_document_of_decode hs
  | animation =>
      obtain ⟨a, ha, rfl⟩ := exists_of_made h
      exact Animation.legible_document_of_decode ha
  | altitude =>
      obtain ⟨m, hm, rfl⟩ := exists_of_made h
      exact AltitudeMap.legible_document_of_decode hm
  | world =>
      obtain ⟨w, hw, rfl⟩ := exists_of_made h
      exact World.legible_document_of_decode hw
  | luaChunk => exact absurd rfl hformat
  | bundle => cases h

end Resource

/-! ### Finite documents -/

theorem Json.isFinite_arrayOf {α : Type} {f : α → Json} (xs : List α)
    (h : ∀ x, (f x).isFinite = true) : (arrayOf f xs).isFinite = true := by
  refine (isFinite_array_iff _).mpr fun j hj => ?_
  obtain ⟨x, -, rfl⟩ := List.mem_map.mp hj
  exact h x

/-- A palette has no real numbers. -/
theorem Palette.isFinite_document (p : Palette) : p.document.isFinite = true := by
  have hcolors := isFinite_arrayOf p.colors.toList fun c =>
    isFinite_arrayOf c.octets fun b => (rfl : (Json.nat b.toNat).isFinite = true)
  exact (isFinite_object_iff _).mpr (List.forall_mem_singleton.mpr hcolors)

/-- A sprite has no real numbers. -/
theorem Sprite.isFinite_document (s : Sprite) : s.document.isFinite = true := by
  have hframe (f : SpriteFrame) : f.document.isFinite = true := rfl
  refine (isFinite_object_iff _).mpr ?_
  simp only [List.forall_mem_cons]
  exact ⟨rfl, isFinite_arrayOf s.indexed hframe, isFinite_arrayOf s.rgba hframe, rfl,
    List.forall_mem_nil _⟩

/-- Of the numbers of an altitude map only the two heights can fail to be finite. -/
theorem AltitudeMap.isFinite_document_iff (m : AltitudeMap) :
    m.document.isFinite = true ↔ m.lowest.isFinite = true ∧ m.highest.isFinite = true := by
  have hterrain : (object (m.terrain.entries.map fun e => (e.1, .nat e.2))).isFinite = true := by
    refine (isFinite_object_iff _).mpr fun e he => ?_
    obtain ⟨entry, -, rfl⟩ := List.mem_map.mp he
    rfl
  have hnat (n : Nat) : (Json.nat n).isFinite = true := rfl
  have hreal (x : Binary64) : (Json.real x).isFinite = x.isFinite := rfl
  have htext : (Json.text m.version.text).isFinite = true := rfl
  rw [document, isFinite_object_iff]
  simp only [List.forall_mem_cons, List.not_mem_nil, false_implies, implies_true, hnat, hreal,
    htext, hterrain, true_and, and_true]

/-- Palettes and sprites have finite documents, whatever they were decoded from. -/
theorem Resource.isFinite_document_of_decode {format : Format} {bs : Bytes}
    {warnings : List Sprite.Warning} {resource : Resource}
    (hformat : format = .palette ∨ format = .sprite)
    (h : decode format bs = (warnings, .ok resource)) : resource.document.isFinite = true := by
  rcases hformat with rfl | rfl
  · obtain ⟨p, -, rfl⟩ := exists_of_made h
    exact p.isFinite_document
  · obtain ⟨s, -, rfl⟩ := exists_of_made h
    exact s.isFinite_document

end ArchiveExport
