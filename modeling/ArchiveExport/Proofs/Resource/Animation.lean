import ArchiveExport.Proofs.Resource.Reading
import ArchiveExport.Resource.Animation

/-!
# Animations as they are stored

How animations are written down, version by version, and that they are read back. Octets of no
meaning may be anything: those in front of a frame, those of a name behind its end, and so on.
-/

namespace ArchiveExport

open Reading

variable {version : Version} {bs : Bytes} {n : Nat}

namespace Animation

/-- The octets of a count. -/
def countOctets (n : Nat) : Bytes :=
  Layout.uint32.encode (UInt32.ofNat n)

theorem spells_count (n : Nat) :
    Spells (Reading.record Layout.uint32) (countOctets n) (UInt32.ofNat n) :=
  Spells.record Layout.uint32 (UInt32.ofNat n)

theorem spells_readCount {limit : Nat} (hn : n ≤ limit) (hlimit : limit < Nat.pow 2 31) :
    Spells (readCount limit) (countOctets n) n := by
  have hcount : (Int32.ofNat n).toInt = n := Int32.toInt_ofNat_of_lt (Nat.lt_of_le_of_lt hn hlimit)
  have hread : Spells (readCount limit) (countOctets n ++ []) n := by
    refine (Spells.record Layout.int32 (Int32.ofNat n)).bind ?_
    rw [hcount, if_pos (by omega)]
    exact Spells.pure n
  rwa [List.append_nil] at hread

end Animation

/-! ### Layers -/

namespace Layer

open Animation

variable {l : Layer}

/-- The fields that files of a version do not have are as they are read then. -/
structure Fits (version : Version) (l : Layer) : Prop where
  plain : ¬ version.atLeast 2 0 = true →
    l.color = (255, 255, 255, 255) ∧ l.scaleX = .one ∧ l.rotation = 0 ∧ l.spriteType = 0
  scaleY : ¬ version.atLeast 2 4 = true → l.scaleY = l.scaleX
  size : ¬ version.atLeast 2 5 = true → (l.width, l.height) = (0, 0)

/-- The octets of a layer behind its place in the frame. -/
def lookOctets (version : Version) (l : Layer) : Bytes :=
  Layout.uint8.quad.encode l.color ++ (Layout.float32.encode l.scaleX ++
    ((if version.atLeast 2 4 then Layout.float32.encode l.scaleY else []) ++
      ((Layout.int32.pair Layout.int32).encode (l.rotation, l.spriteType) ++
        if version.atLeast 2 5 then (Layout.int32.pair Layout.int32).encode (l.width, l.height)
        else [])))

/-- The octets of a layer. Any number but zero says that it is mirrored. -/
def Written (version : Version) (l : Layer) (bs : Bytes) : Prop :=
  ∃ mirror : Int32, decide (mirror ≠ 0) = l.mirror ∧
    bs = Layout.int32.quad.encode (l.x, l.y, l.spriteIndex, mirror) ++
      if version.atLeast 2 0 then l.lookOctets version else []

theorem exists_written (version : Version) (l : Layer) : ∃ bs, l.Written version bs := by
  refine ⟨_, if l.mirror then 1 else 0, ?_, rfl⟩
  cases l.mirror <;> rfl

theorem spells (hl : l.Fits version) (hbs : l.Written version bs) :
    Spells (readLayer version) bs l := by
  obtain ⟨mirror, hmirror, rfl⟩ := hbs
  refine (Spells.record Layout.int32.quad (l.x, l.y, l.spriteIndex, mirror)).bind ?_
  by_cases hnew : version.atLeast 2 0 = true
  · simp only [hnew, Bool.not_true, Bool.false_eq_true, if_false, if_true]
    refine (Spells.record Layout.uint8.quad l.color).bind ?_
    refine (Spells.record Layout.float32 l.scaleX).bind ?_
    refine Spells.bind_optional (fun _ => Spells.record Layout.float32 l.scaleY) hl.scaleY ?_
    refine (Spells.record (Layout.int32.pair Layout.int32) (l.rotation, l.spriteType)).bind ?_
    refine Spells.bind_optional_last
      (fun _ => Spells.record (Layout.int32.pair Layout.int32) (l.width, l.height)) hl.size ?_
    rw [hmirror]
  · obtain ⟨hcolor, hscaleX, hrotation, htype⟩ := hl.plain hnew
    have hscaleY := hl.scaleY fun h => hnew (Version.atLeast_trans h (by decide))
    have hsize := hl.size fun h => hnew (Version.atLeast_trans h (by decide))
    have hplain : Layer.mk l.x l.y l.spriteIndex l.mirror .one .one 0 0 0 0
        (255, 255, 255, 255) = l := by
      cases l
      simp_all
    simp only [hnew, Bool.not_false, if_true, Bool.false_eq_true, if_false]
    rw [hmirror, hplain]
    exact Spells.pure l

end Layer

/-! ### Anchors -/

namespace Anchor

open Animation

variable {p : Anchor} {anchors : List Anchor}

/-- The octets of an anchor. -/
def Written (p : Anchor) (bs : Bytes) : Prop :=
  ∃ filler : UInt32,
    bs = (Layout.uint32.pair Layout.int32.triple).encode (filler, p.x, p.y, p.attr)

theorem length_of_written (hbs : p.Written bs) : bs.length = 16 := by
  obtain ⟨filler, rfl⟩ := hbs
  exact Layout.length_encode _ _

theorem spells (hbs : p.Written bs) : Spells readAnchor bs p := by
  obtain ⟨filler, rfl⟩ := hbs
  exact (Spells.record _ (filler, p.x, p.y, p.attr)).bind_pure _

/-- The octets of the anchors of a frame, in versions that have them. -/
def ListWritten (version : Version) (anchors : List Anchor) (bs : Bytes) : Prop :=
  if version.atLeast 2 3 then
    ∃ octets, WrittenInTurn Written anchors octets ∧ bs = countOctets anchors.length ++ octets
  else
    bs = []

theorem exists_listWritten (version : Version) (anchors : List Anchor) :
    ∃ bs, ListWritten version anchors bs := by
  unfold ListWritten
  split
  · obtain ⟨octets, hoctets⟩ :=
      WrittenInTurn.exists_of_forall (w := Written) fun p (_ : p ∈ anchors) => ⟨_, 0, rfl⟩
    exact ⟨_, octets, hoctets, rfl⟩
  · exact ⟨[], rfl⟩

end Anchor

namespace Animation

@[simp] theorem length_countOctets (n : Nat) : (countOctets n).length = 4 :=
  Layout.length_encode _ _

theorem readAnchors_eq_nil {r : Reader}
    (h : ¬ version.atLeast 2 3 = true ∨ r.remaining < 4) : readAnchors version r = .ok ([], r) := by
  rw [readAnchors, remaining_bind, if_pos (by simpa using h)]
  rfl

theorem readAnchors_countOctets_append (hnew : version.atLeast 2 3 = true) (hn : n ≤ maxAnchors)
    (done rest : Bytes) :
    readAnchors version (.behind done (countOctets n ++ rest)) =
      timesWhile 16 readAnchor n (.behind (done ++ countOctets n) rest) := by
  have hlong : ¬ (Reader.behind done (countOctets n ++ rest)).remaining < 4 := by
    rw [Reader.remaining_behind, List.length_append, length_countOctets]
    omega
  have hcount : (UInt32.ofNat n).toNat = n :=
    UInt32.toNat_ofNat_of_lt' (Nat.lt_of_le_of_lt hn (by decide))
  rw [readAnchors, remaining_bind, if_neg (by rw [hnew, decide_eq_false hlong]; decide),
    bind_of_ok ((spells_count n).reads done rest), hcount, if_neg (Nat.not_lt.mpr hn)]

theorem reads_readAnchors {anchors : List Anchor} (hle : anchors.length ≤ maxAnchors)
    (hold : ¬ version.atLeast 2 3 = true → anchors = [])
    (hbs : Anchor.ListWritten version anchors bs) : Reads (readAnchors version) bs anchors := by
  intro done rest
  rw [Anchor.ListWritten] at hbs
  split at hbs
  next hnew =>
    obtain ⟨octets, hoctets, rfl⟩ := hbs
    rw [List.append_assoc, readAnchors_countOctets_append hnew hle,
      Reads.timesWhile (fun _ _ h => (Anchor.spells h).reads)
        (fun _ _ h => Anchor.length_of_written h) hoctets, List.append_assoc]
  next hnone =>
    rw [hbs, hold hnone, readAnchors_eq_nil (Or.inl hnone), List.append_nil]
    rfl

end Animation

/-! ### Frames -/

namespace AnimationFrame

open Animation

variable {f : AnimationFrame}

/-- What a frame of a version can hold. -/
structure Fits (version : Version) (f : AnimationFrame) : Prop where
  layers_le : f.layers.length ≤ maxLayers
  anchors_le : f.anchors.length ≤ maxAnchors
  layers : ∀ l ∈ f.layers, l.Fits version
  event : ¬ version.atLeast 2 0 = true → f.event = -1
  anchors : ¬ version.atLeast 2 3 = true → f.anchors = []

/-- The octets of a frame in front of its anchors. -/
def BodyWritten (version : Version) (f : AnimationFrame) (bs : Bytes) : Prop :=
  ∃ filler layers : Bytes, filler.length = 32 ∧
    WrittenInTurn (Layer.Written version) f.layers layers ∧
    bs = filler ++ (countOctets f.layers.length ++
      (layers ++ if version.atLeast 2 0 then Layout.int32.encode f.event else []))

/-- The octets of a frame. -/
def Written (version : Version) (f : AnimationFrame) (bs : Bytes) : Prop :=
  ∃ body anchors, f.BodyWritten version body ∧ Anchor.ListWritten version f.anchors anchors ∧
    bs = body ++ anchors

theorem exists_written (version : Version) (f : AnimationFrame) : ∃ bs, f.Written version bs := by
  obtain ⟨layers, hlayers⟩ := WrittenInTurn.exists_of_forall fun l (_ : l ∈ f.layers) =>
    Layer.exists_written version l
  obtain ⟨anchors, hanchors⟩ := Anchor.exists_listWritten version f.anchors
  exact ⟨_, _, anchors, ⟨List.replicate 32 0, layers, List.length_replicate, hlayers, rfl⟩,
    hanchors, rfl⟩

/-- Read a frame up to its anchors. -/
def readBody (version : Version) : Reading (List Layer × Int32) := do
  Reading.skip 32
  let count ← readCount maxLayers
  let layers ← Reading.times (readLayer version) count
  if version.atLeast 2 0 then
    return (layers, ← Reading.record Layout.int32)
  else
    return (layers, ← pure (-1))

theorem readFrame_eq (version : Version) :
    readFrame version = do
      let body ← readBody version
      let anchors ← readAnchors version
      return ⟨body.1, body.2, anchors⟩ := by
  unfold readFrame readBody
  by_cases hnew : version.atLeast 2 0 = true
  · simp [hnew]
  · simp [hnew]

theorem spells_body (hf : f.Fits version) (hbs : f.BodyWritten version bs) :
    Spells (readBody version) bs (f.layers, f.event) := by
  obtain ⟨filler, layers, hfiller, hlayers, rfl⟩ := hbs
  refine (Spells.skip (by rw [hfiller]; rfl)).bind ?_
  refine (spells_readCount hf.layers_le (by decide)).bind ?_
  refine (Spells.times hlayers fun l hl bs hbs => Layer.spells (hf.layers l hl) hbs).bind ?_
  exact Spells.bind_optional_last (fun _ => Spells.record Layout.int32 f.event) hf.event rfl

theorem reads (hf : f.Fits version) (hbs : f.Written version bs) :
    Reads (readFrame version) bs f := by
  obtain ⟨body, anchors, hbody, hanchors, rfl⟩ := hbs
  rw [readFrame_eq]
  exact (spells_body hf hbody).reads.bind
    ((reads_readAnchors hf.anchors_le hf.anchors hanchors).bind_pure _)

end AnimationFrame

/-! ### Actions -/

namespace Action

open Animation

variable {action : Action}

/-- What an action of a version can hold. -/
structure Fits (version : Version) (action : Action) : Prop where
  length_le : action.length ≤ maxFrames
  frames : ∀ f ∈ action, f.Fits version

/-- The octets of an action. -/
def Written (version : Version) (action : Action) (bs : Bytes) : Prop :=
  ∃ frames, WrittenInTurn (AnimationFrame.Written version) action frames ∧
    bs = countOctets action.length ++ frames

theorem exists_written (version : Version) (action : Action) : ∃ bs, Written version action bs := by
  obtain ⟨frames, hframes⟩ := WrittenInTurn.exists_of_forall fun f (_ : f ∈ action) =>
    AnimationFrame.exists_written version f
  exact ⟨_, frames, hframes, rfl⟩

theorem reads (haction : Fits version action) (hbs : Written version action bs) :
    Reads (readAction version) bs action := by
  obtain ⟨frames, hframes, rfl⟩ := hbs
  exact (spells_readCount haction.length_le (by decide)).reads.bind
    (Reads.times hframes fun f hf _ h => AnimationFrame.reads (haction.frames f hf) h)

end Action

namespace Animation

variable {actions : List Action} {events kept : List String} {speeds : List Binary32}

theorem readActions_of_ok {count : Nat} {r r' : Reader} {action : Action}
    (hmore : 0 < r.remaining) (hread : readAction version r = .ok (action, r')) :
    readActions version (count + 1) r =
      (action :: (readActions version count r').1, (readActions version count r').2) := by
  rw [readActions, if_neg (Int.not_le.mpr hmore), hread]

/-- Actions that are there are read, and then those behind them. -/
theorem readActions_append (hactions : ∀ action ∈ actions, Action.Fits version action)
    (hbs : WrittenInTurn (Action.Written version) actions bs) (count : Nat) (done rest : Bytes) :
    readActions version (actions.length + count) (.behind done (bs ++ rest)) =
      (actions ++ (readActions version count (.behind (done ++ bs) rest)).1,
        (readActions version count (.behind (done ++ bs) rest)).2) := by
  induction hbs generalizing done with
  | nil => rw [List.append_nil, List.length_nil, Nat.zero_add]; rfl
  | @cons action actions first bs hfirst hmore ih =>
      rw [List.forall_mem_cons] at hactions
      have hpos : 0 < (Reader.behind done (first ++ (bs ++ rest))).remaining := by
        obtain ⟨frames, -, rfl⟩ := hfirst
        rw [Reader.remaining_behind, List.length_append, List.length_append, length_countOctets]
        omega
      rw [List.append_assoc, List.length_cons, Nat.add_right_comm,
        readActions_of_ok hpos (Action.reads hactions.1 hfirst done (bs ++ rest)),
        ih hactions.2 (done ++ first), List.append_assoc, List.cons_append]

/-! ### Events and speeds -/

theorem readEvents_countOctets_append (hnew : version.atLeast 2 1 = true) (hn : n < Nat.pow 2 32)
    {done rest : Bytes} {r : Reader}
    (hread : Reading.times (Reading.name eventSize) (min n (rest.length / eventSize))
      (.behind (done ++ countOctets n) rest) = .ok (events, r)) :
    readEvents version (.behind done (countOctets n ++ rest)) = (events, r) := by
  rw [readEvents, if_pos hnew, (spells_count n).reads done rest]
  simp only [UInt32.toNat_ofNat_of_lt' hn, Reader.remaining_behind, Int.toNat_natCast, hread]

/-- As many events are read as are counted and have room. -/
theorem readEvents_append (hnew : version.atLeast 2 1 = true)
    (hnames : ∀ name ∈ kept, 0 ∉ Bytes.ofString name)
    (hbs : WrittenInTurn (NameWritten eventSize) kept bs) (hn : n < Nat.pow 2 32)
    (done rest : Bytes) (hkept : kept.length = min n ((bs ++ rest).length / eventSize)) :
    readEvents version (.behind done (countOctets n ++ (bs ++ rest))) =
      (kept, .behind ((done ++ countOctets n) ++ bs) rest) := by
  have hread : Reading.times (Reading.name eventSize) kept.length
      (.behind (done ++ countOctets n) (bs ++ rest)) =
        .ok (kept, .behind ((done ++ countOctets n) ++ bs) rest) :=
    Reads.times hbs (fun name hname _ h => Reads.name (hnames name hname) h) _ rest
  rw [hkept] at hread
  exact readEvents_countOctets_append hnew hn hread

/-- The speeds that are read for so many actions. -/
def storedSpeeds : Nat → Reader → List Binary32
  | 0, _ => []
  | n + 1, r =>
    match Reading.record Layout.float32 r with
    | .ok (speed, r) => speed :: storedSpeeds n r
    | .error _ => []

theorem storedSpeeds_flatMap_append (speeds : List Binary32) (done rest : Bytes) :
    storedSpeeds speeds.length (.behind done (speeds.flatMap Layout.float32.encode ++ rest)) =
      speeds := by
  induction speeds generalizing done with
  | nil => rfl
  | cons speed speeds ih =>
      have hread := (Spells.record Layout.float32 speed).reads done
        (speeds.flatMap Layout.float32.encode ++ rest)
      rw [List.flatMap_cons, List.append_assoc, List.length_cons, storedSpeeds, hread]
      exact congrArg (speed :: ·) (ih (done ++ Layout.float32.encode speed))

/-- Each action has the interval of its speed, and those behind the speeds that of the last one. -/
theorem readIntervals_eq (speed : Binary32) (actions : List Action) (r : Reader) :
    readIntervals speed actions r =
      (storedSpeeds actions.length r).map interval ++
        List.replicate (actions.length - (storedSpeeds actions.length r).length)
          (interval ((storedSpeeds actions.length r).getLastD speed)) := by
  induction actions generalizing speed r with
  | nil => rfl
  | cons action actions ih =>
      rw [readIntervals, List.length_cons, storedSpeeds]
      cases hread : Reading.record Layout.float32 r with
      | ok result =>
          simp only [ih, List.map_cons, List.cons_append, List.length_cons, Nat.add_sub_add_right,
            List.getLastD_cons]
      | error fault =>
          have hnone : storedSpeeds actions.length r = [] := by
            cases actions with
            | nil => rfl
            | cons action actions => rw [List.length_cons, storedSpeeds, hread]
          simp [ih, hnone, List.replicate_succ]

/-- What is decoded behind the header. -/
theorem decode_of_header {count : Nat} {r : Reader}
    (hheader : decodeHeader bs = .ok (version, count))
    (hactions : readActions version count (.ofBytes bs headerSize) = (actions, r)) :
    decode bs =
      if actions.isEmpty then .error .noActions
      else .ok ⟨version, actions, (readEvents version r).1,
        intervalsFor version actions (readEvents version r).2⟩ := by
  rw [decode, hheader]
  simp only [bind, Except.bind, hactions]
  split <;> rfl

end Animation

/-! ### Files -/

/-- What the file of an animation holds. -/
structure StoredAnimation where
  version : Version
  actions : List Action
  events : List String
  speeds : List Binary32

namespace StoredAnimation

open Animation

variable {a : StoredAnimation}

/-- What a file can hold: a version from 1.0 to 3.255, at least one action, no more actions,
frames, layers and anchors than are read, events with names that fit their fields, a speed for
each action, and nothing that the version does not have. -/
structure Fits (a : StoredAnimation) : Prop where
  major : 1 ≤ a.version.major ∧ a.version.major ≤ 3
  minor : a.version.minor ≤ 255
  actions_ne_nil : a.actions ≠ []
  actions_le : a.actions.length ≤ maxActions
  actions : ∀ action ∈ a.actions, Action.Fits a.version action
  events : ¬ a.version.atLeast 2 1 = true → a.events = []
  events_lt : a.events.length < Nat.pow 2 32
  names : ∀ name ∈ a.events, 0 ∉ Bytes.ofString name ∧ (Bytes.ofString name).length ≤ eventSize
  speeds : a.speeds.length = if a.version.atLeast 2 2 then a.actions.length else 0

/-- The octets in front of the actions. -/
def headerOctets (a : StoredAnimation) (filler : Bytes) : Bytes :=
  [0x41, 0x43, UInt8.ofNat a.version.minor, UInt8.ofNat a.version.major] ++
    (Bytes.ofNat 2 a.actions.length ++ filler)

/-- The octets of the speeds. -/
def speedOctets (a : StoredAnimation) : Bytes :=
  a.speeds.flatMap Layout.float32.encode

/-- The octets of the events, in versions that have them. -/
def EventsWritten (a : StoredAnimation) (bs : Bytes) : Prop :=
  if a.version.atLeast 2 1 then
    ∃ names, WrittenInTurn (NameWritten eventSize) a.events names ∧
      bs = countOctets a.events.length ++ names
  else
    bs = []

/-- The octets of a file. -/
def Written (a : StoredAnimation) (bs : Bytes) : Prop :=
  ∃ filler actions events : Bytes, filler.length = 10 ∧
    WrittenInTurn (Action.Written a.version) a.actions actions ∧ a.EventsWritten events ∧
    bs = a.headerOctets filler ++ (actions ++ (events ++ a.speedOctets))

/-- The animation that is read back. Files without speeds have the standard interval. -/
def restored (a : StoredAnimation) : Animation :=
  ⟨a.version, a.actions, a.events,
    if a.version.atLeast 2 2 then a.speeds.map interval
    else a.actions.map fun _ => standardInterval⟩

theorem decodeHeader_append (ha : a.Fits) {filler : Bytes} (hfiller : filler.length = 10)
    (body : Bytes) :
    decodeHeader (a.headerOctets filler ++ body) = .ok (a.version, a.actions.length) := by
  have hmax : maxActions < Nat.pow 256 2 := by decide
  have hcount : Bytes.toNat
      [UInt8.ofNat a.actions.length, UInt8.ofNat (a.actions.length / 256)] = a.actions.length :=
    Bytes.toNat_ofNat (Nat.lt_of_le_of_lt ha.actions_le hmax)
  have hmajor : (UInt8.ofNat a.version.major).toNat = a.version.major :=
    UInt8.toNat_ofNat_of_lt' (Nat.lt_of_le_of_lt ha.major.2 (by decide))
  have hminor : (UInt8.ofNat a.version.minor).toNat = a.version.minor :=
    UInt8.toNat_ofNat_of_lt' (Nat.lt_of_le_of_lt ha.minor (by decide))
  have hlong : ¬ (filler ++ body).length + 6 < headerSize := by
    rw [List.length_append, hfiller, headerSize]
    omega
  have hversion : ¬ (a.version.major < 1 ∨ 3 < a.version.major) := by
    have := ha.major
    omega
  have hfew : ¬ maxActions < a.actions.length := Nat.not_lt.mpr ha.actions_le
  have hbytes : a.headerOctets filler ++ body =
      0x41 :: 0x43 :: UInt8.ofNat a.version.minor :: UInt8.ofNat a.version.major ::
        UInt8.ofNat a.actions.length :: UInt8.ofNat (a.actions.length / 256) ::
          (filler ++ body) := rfl
  rw [hbytes, decodeHeader]
  simp only [hmajor, hminor, hcount]
  rw [if_neg hlong, if_neg (by decide), if_neg hversion, if_neg hfew]
  rfl

theorem length_headerOctets {filler : Bytes} (hfiller : filler.length = 10) :
    (a.headerOctets filler).length = headerSize := by
  simp [headerOctets, Bytes.length_ofNat, hfiller, headerSize]

theorem behind_headerOctets {filler : Bytes} (hfiller : filler.length = 10) (body : Bytes) :
    Reader.ofBytes (a.headerOctets filler ++ body) headerSize =
      .behind (a.headerOctets filler) body := by
  rw [Reader.behind, length_headerOctets hfiller]

/-- The events are read behind the actions. -/
theorem readEvents_written (ha : a.Fits) {events : Bytes} (hevents : a.EventsWritten events)
    (done rest : Bytes) :
    readEvents a.version (.behind done (events ++ rest)) =
      (a.events, .behind (done ++ events) rest) := by
  rw [EventsWritten] at hevents
  split at hevents
  next hnew =>
    obtain ⟨names, hnames, rfl⟩ := hevents
    have hlength : names.length = eventSize * a.events.length :=
      hnames.length_eq fun _ _ h => h.choose_spec.2.2
    have hroom : a.events.length = min a.events.length ((names ++ rest).length / eventSize) := by
      have hle : a.events.length ≤ (names ++ rest).length / eventSize := by
        rw [Nat.le_div_iff_mul_le (by decide), List.length_append, hlength, Nat.mul_comm]
        exact Nat.le_add_right _ _
      exact (Nat.min_eq_left hle).symm
    rw [List.append_assoc, readEvents_append hnew (fun name hname => (ha.names name hname).1) hnames
      ha.events_lt done rest hroom, List.append_assoc]
  next hold =>
    rw [hevents, readEvents, if_neg hold, ha.events hold, List.append_nil]
    rfl

/-- The speeds are read behind the events. -/
theorem intervalsFor_speedOctets (ha : a.Fits) (done : Bytes) :
    intervalsFor a.version a.actions (.behind done a.speedOctets) = a.restored.intervals := by
  have hspeeds := ha.speeds
  rw [intervalsFor, restored, Reader.remaining_behind]
  by_cases hnew : a.version.atLeast 2 2 = true
  · rw [if_pos hnew] at hspeeds
    have hstored := storedSpeeds_flatMap_append a.speeds done []
    rw [List.append_nil, hspeeds] at hstored
    have hpos : 0 < a.speedOctets.length := by
      obtain ⟨speed, speeds, hcons⟩ := List.exists_cons_of_length_pos
        (hspeeds ▸ List.length_pos_iff.mpr ha.actions_ne_nil)
      rw [speedOctets, hcons, List.flatMap_cons, List.length_append, Layout.length_encode]
      exact Nat.add_pos_left (by decide) _
    rw [if_pos (by simpa [hnew] using hpos), if_pos hnew, readIntervals_eq, speedOctets, hstored,
      hspeeds, Nat.sub_self, List.replicate_zero, List.append_nil]
  · rw [if_neg (by simp [hnew]), if_neg hnew]

theorem exists_written (ha : a.Fits) : ∃ bs, a.Written bs := by
  obtain ⟨actions, hactions⟩ := WrittenInTurn.exists_of_forall
    fun action (_ : action ∈ a.actions) => Action.exists_written a.version action
  have hevents : ∃ events, a.EventsWritten events := by
    unfold EventsWritten
    split
    · obtain ⟨names, hnames⟩ := WrittenInTurn.exists_of_forall fun name hname =>
        exists_nameWritten (ha.names name hname).2
      exact ⟨_, names, hnames, rfl⟩
    · exact ⟨[], rfl⟩
  obtain ⟨events, hevents⟩ := hevents
  exact ⟨_, List.replicate 10 0, actions, events, List.length_replicate, hactions, hevents, rfl⟩

theorem length_intervals (ha : a.Fits) : a.restored.intervals.length = a.actions.length := by
  have hspeeds := ha.speeds
  unfold restored
  split
  next hnew => rw [List.length_map, hspeeds, if_pos hnew]
  next => rw [List.length_map]

theorem decode_eq (ha : a.Fits) {bs : Bytes} (hbs : a.Written bs) : decode bs = .ok a.restored := by
  obtain ⟨filler, actions, events, hfiller, hactions, hevents, rfl⟩ := hbs
  have hread := readActions_append ha.actions hactions 0 (a.headerOctets filler)
    (events ++ a.speedOctets)
  rw [Nat.add_zero, readActions, List.append_nil] at hread
  rw [← behind_headerOctets hfiller] at hread
  rw [decode_of_header (decodeHeader_append ha hfiller _) hread,
    if_neg (by simpa using ha.actions_ne_nil), readEvents_written ha hevents,
    intervalsFor_speedOctets ha]
  rfl

/-- The frames of an action have its interval for their delay. -/
theorem frame?_restored (ha : a.Fits) {i j : Nat} {action : Action} {f : AnimationFrame}
    (haction : a.actions[i]? = some action) (hf : action[j]? = some f) :
    ∃ interval, a.restored.intervals[i]? = some interval ∧
      a.restored.frame? i j = some (f, interval) := by
  have hi : i < a.restored.intervals.length := by
    rw [length_intervals ha]
    exact (List.getElem?_eq_some_iff.mp haction).1
  have htimed : a.restored.timedActions[i]? = some (action, a.restored.intervals[i]) :=
    List.getElem?_zip_eq_some.mpr ⟨haction, List.getElem?_eq_getElem hi⟩
  refine ⟨_, List.getElem?_eq_getElem hi, ?_⟩
  rw [frame?, if_neg (by omega)]
  simp only [Int.toNat_natCast, htimed, hf, Option.map_some]

/-- An animation can be written down, and it is read back from any octets that say it, with an
interval for each action that is the delay of each of the action's frames. -/
theorem decode_written (ha : a.Fits) :
    (∃ bs, a.Written bs) ∧ ∀ bs, a.Written bs →
      decode bs = .ok a.restored ∧
      a.restored.intervals.length = a.actions.length ∧
      ∀ (i j : Nat) (action : Action) (f : AnimationFrame),
        a.actions[i]? = some action → action[j]? = some f →
          ∃ interval, a.restored.intervals[i]? = some interval ∧
            a.restored.frame? i j = some (f, interval) :=
  ⟨exists_written ha, fun _ hbs =>
    ⟨decode_eq ha hbs, length_intervals ha, fun _ _ _ _ => frame?_restored ha⟩⟩

/-- An animation of two actions, with a field of each kind. -/
def salute : StoredAnimation where
  version := ⟨2, 5⟩
  actions :=
    [[], [⟨[⟨-3, 4, 0, true, ⟨0x3F000000⟩, .one, 90, 1, 24, 32, (255, 128, 0, 255)⟩], 0,
      [⟨1, -2, 0⟩]⟩]]
  events := ["attack.wav"]
  speeds := [.one, ⟨0x40000000⟩]

theorem decode_written_of_salute :
    salute.Fits ∧ ∃ bs, salute.Written bs ∧ decode bs = .ok salute.restored ∧
      ∃ frame, salute.restored.frame? 1 0 = some (frame, interval ⟨0x40000000⟩) := by
  have hfits : salute.Fits := by
    refine ⟨by decide, by decide, by decide, by decide, ?_, by decide, by decide, ?_, by decide⟩
    · intro action haction
      simp only [salute, List.mem_cons, List.not_mem_nil, or_false] at haction
      rcases haction with rfl | rfl
      · exact ⟨by decide, fun f hf => absurd hf List.not_mem_nil⟩
      · refine ⟨by decide, fun f hf => ?_⟩
        obtain rfl := List.mem_singleton.mp hf
        refine ⟨by decide, by decide, fun l hl => ?_, by decide, by decide⟩
        obtain rfl := List.mem_singleton.mp hl
        exact ⟨by decide, by decide, by decide⟩
    · intro name hname
      obtain rfl := List.mem_singleton.mp hname
      decide
  obtain ⟨⟨bs, hbs⟩, hread⟩ := decode_written hfits
  obtain ⟨hdecode, -, hframes⟩ := hread bs hbs
  obtain ⟨delay, hdelay, hframe⟩ := hframes 1 0 _ _ rfl rfl
  obtain rfl : interval ⟨0x40000000⟩ = delay := Option.some.inj hdelay
  exact ⟨hfits, bs, hbs, hdecode, _, hframe⟩

end StoredAnimation

end ArchiveExport
