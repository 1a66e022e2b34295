import ArchiveExport.Proofs.Resource.Animation

/-!
# Animations that are cut

What is read of a file that ends too early. An action that is torn is passed over, and events and
speeds are then looked for in what is left of it. Only where nothing but anchors is missing, the
torn action is kept, without them.
-/

namespace ArchiveExport

open Reading

variable {version : Version} {bs cut missing begun gap : Bytes} {n : Nat}

/-! ### Sizes -/

/-- The number of octets of a layer. -/
def Layer.size (version : Version) : Nat :=
  16 + if version.atLeast 2 0 then
    16 + ((if version.atLeast 2 4 then 4 else 0) + if version.atLeast 2 5 then 8 else 0)
  else 0

/-- The number of octets of the anchors of a frame, with their count. -/
def Anchor.listSize (version : Version) (count : Nat) : Nat :=
  if version.atLeast 2 3 then 4 + 16 * count else 0

/-- The number of octets of a frame. -/
def AnimationFrame.size (version : Version) (f : AnimationFrame) : Nat :=
  36 + Layer.size version * f.layers.length + (if version.atLeast 2 0 then 4 else 0) +
    Anchor.listSize version f.anchors.length

/-- The number of octets of an action. -/
def Action.size (version : Version) (action : Action) : Nat :=
  4 + total (AnimationFrame.size version) action

theorem Layer.length_of_written {l : Layer} (hbs : l.Written version bs) :
    bs.length = Layer.size version := by
  obtain ⟨mirror, -, rfl⟩ := hbs
  have hplace : ∀ x, (Layout.int32.quad.encode x).length = 16 := Layout.length_encode _
  have hcolor : ∀ x, (Layout.uint8.quad.encode x).length = 4 := Layout.length_encode _
  have hscale : ∀ x, (Layout.float32.encode x).length = 4 := Layout.length_encode _
  have hpair : ∀ x, ((Layout.int32.pair Layout.int32).encode x).length = 8 :=
    Layout.length_encode _
  rw [size, List.length_append, hplace]
  congr 1
  split
  · simp only [lookOctets, List.length_append, hcolor, hscale, hpair, apply_ite List.length,
      List.length_nil]
    omega
  · rfl

theorem Anchor.length_of_listWritten {anchors : List Anchor}
    (hbs : ListWritten version anchors bs) : bs.length = listSize version anchors.length := by
  rw [ListWritten] at hbs
  rw [listSize]
  split at hbs
  next hnew =>
    obtain ⟨octets, hoctets, rfl⟩ := hbs
    rw [if_pos hnew, List.length_append, Animation.length_countOctets,
      hoctets.length_eq fun _ _ => length_of_written]
  next hold => rw [hbs, if_neg hold, List.length_nil]

theorem AnimationFrame.length_of_written (f : AnimationFrame) (hbs : f.Written version bs) :
    bs.length = f.size version := by
  obtain ⟨body, anchors, ⟨filler, layers, hfiller, hlayers, rfl⟩, hanchors, rfl⟩ := hbs
  have hevent : ∀ x, (Layout.int32.encode x).length = 4 := Layout.length_encode _
  rw [size, List.length_append, Anchor.length_of_listWritten hanchors, List.length_append, hfiller,
    List.length_append, Animation.length_countOctets, List.length_append,
    hlayers.length_eq fun _ _ => Layer.length_of_written, apply_ite List.length, hevent,
    List.length_nil]
  omega

theorem Action.length_of_written {action : Action} (hbs : Written version action bs) :
    bs.length = size version action := by
  obtain ⟨frames, hframes, rfl⟩ := hbs
  rw [size, List.length_append, Animation.length_countOctets,
    hframes.length_eq_total fun f _ hf => f.length_of_written hf]

namespace Animation

variable {anchors : List Anchor} {f : AnimationFrame} {frames kept : List AnimationFrame}
  {left : Bytes}

/-! ### What is read of a torn action -/

/-- Whether the last frame has no anchors. -/
def anchorless (frames : List AnimationFrame) : Bool :=
  frames.getLast?.all fun f => f.anchors.isEmpty

/-- Whether nothing can be missing but the anchors of the last frame and their count. -/
def lacksAnchors (version : Version) (frames : List AnimationFrame) (missing : Nat) : Bool :=
  frames.getLast?.any fun f => missing ≤ Anchor.listSize version f.anchors.length

/-- What is read of frames that lack anchors, and what is left behind them: all of them where
there are no anchors, and otherwise other frames. -/
structure Remnant (frames kept : List AnimationFrame) (left : Bytes) : Prop where
  length_left : left.length < 16
  whole : anchorless frames = true → kept = frames ∧ left.length < 4
  other : anchorless frames = false → kept ≠ frames

theorem readAnchors_cut (hle : anchors.length ≤ maxAnchors)
    (hbs : Anchor.ListWritten version anchors bs) (hcut : cut ++ missing = bs)
    (hmissing : missing ≠ []) (done : Bytes) :
    ∃ few taken left, readAnchors version (.behind done cut) =
        .ok (few, .behind (done ++ taken) left) ∧ left.length < 16 ∧
      (anchors = [] → few = [] ∧ left.length < 4) ∧ (anchors ≠ [] → few ≠ anchors) := by
  rw [Anchor.ListWritten] at hbs
  split at hbs
  next hnew =>
    obtain ⟨octets, hoctets, rfl⟩ := hbs
    rcases eq_append_or_eq_append hcut with ⟨gap, hgap, hcount, -⟩ | ⟨begun, rfl, hbegun⟩
    · have hshort := length_lt_of_append_eq hcount hgap
      rw [length_countOctets] at hshort
      refine ⟨[], [], cut, ?_, by omega, fun _ => ⟨rfl, hshort⟩, fun h => h.symm⟩
      rw [List.append_nil]
      exact readAnchors_eq_nil (Or.inr (by rw [Reader.remaining_behind]; omega))
    · obtain ⟨few, taken, left, -, hne, hleft, rfl, hread⟩ :=
        timesWhile_cut (fun _ _ h => (Anchor.spells h).reads)
          (fun _ _ h => Anchor.length_of_written h) hoctets hbegun hmissing
          (done ++ countOctets anchors.length)
      refine ⟨few, countOctets anchors.length ++ taken, left, ?_, hleft, fun hnil => ?_,
        fun _ => hne⟩
      · rw [readAnchors_countOctets_append hnew hle, hread, List.append_assoc]
      · rw [hnil] at hoctets
        rw [hoctets.eq_nil] at hbegun
        exact absurd (List.append_eq_nil_iff.mp hbegun).2 hmissing
  next =>
    rw [hbs] at hcut
    exact absurd (List.append_eq_nil_iff.mp hcut).2 hmissing

/-- A torn frame is read exactly where nothing is missing in front of its anchors. -/
theorem readFrame_cut (hf : f.Fits version) (hbs : f.Written version bs)
    (hcut : cut ++ missing = bs) (hmissing : missing ≠ []) (done : Bytes) :
    if missing.length ≤ Anchor.listSize version f.anchors.length then
      ∃ g taken left, readFrame version (.behind done cut) =
        .ok (g, .behind (done ++ taken) left) ∧ Remnant [f] [g] left
    else
      ∃ fault, readFrame version (.behind done cut) = .error fault := by
  obtain ⟨body, anchors, hbody, hanchors, rfl⟩ := hbs
  have hspells := AnimationFrame.spells_body hf hbody
  have hsize := Anchor.length_of_listWritten hanchors
  rw [AnimationFrame.readFrame_eq]
  rcases eq_append_or_eq_append hcut with ⟨gap, hgap, hwhole, hlost⟩ | ⟨begun, rfl, hbegun⟩
  · obtain ⟨fault, hfault⟩ := hspells.refuses done cut gap hwhole hgap
    have hlong := length_lt_of_eq_append hlost hgap
    rw [hsize] at hlong
    rw [if_neg (Nat.not_le.mpr hlong)]
    exact ⟨fault, bind_of_error hfault⟩
  · obtain ⟨few, taken, left, hread, hleft, hnone, hsome⟩ :=
      readAnchors_cut hf.anchors_le hanchors hbegun hmissing (done ++ body)
    have hshort : missing.length ≤ Anchor.listSize version f.anchors.length := by
      rw [← hsize, ← hbegun, List.length_append]
      exact Nat.le_add_left _ _
    rw [if_pos hshort]
    refine ⟨⟨f.layers, f.event, few⟩, body ++ taken, left, ?_, hleft, fun h => ?_, fun h => ?_⟩
    · rw [bind_of_ok (hspells.reads done begun), bind_of_ok hread, List.append_assoc]
      rfl
    · have hnil : f.anchors = [] := by simpa [anchorless] using h
      obtain ⟨rfl, hfour⟩ := hnone hnil
      refine ⟨?_, hfour⟩
      rw [← hnil]
    · have hne : f.anchors ≠ [] := by simpa [anchorless] using h
      intro heq
      exact hsome hne (congrArg AnimationFrame.anchors (List.singleton_inj.mp heq))

theorem readFrame_of_short (version : Version) (h : cut.length < 32) (done : Bytes) :
    ∃ fault, readFrame version (.behind done cut) = .error fault := by
  have hskip : Reading.skip 32 (.behind done cut) = .error (.skip 32 done.length) := by
    rw [Reading.skip, Reader.remaining_behind, if_pos (by omega)]
    rfl
  rw [AnimationFrame.readFrame_eq]
  exact ⟨_, bind_of_error (bind_of_error hskip)⟩

theorem lacksAnchors_eq_false (hbs : WrittenInTurn (AnimationFrame.Written version) frames bs)
    (h : bs.length < n) : lacksAnchors version frames n = false := by
  have hsize := hbs.length_eq_total fun f _ hf => f.length_of_written hf
  rw [lacksAnchors]
  cases hlast : frames.getLast? with
  | none => rfl
  | some f =>
      obtain ⟨before, rfl⟩ := List.getLast?_eq_some_iff.mp hlast
      rw [total_concat, AnimationFrame.size] at hsize
      simp only [Option.any_some, decide_eq_false_iff_not]
      omega

/-- How torn frames are taken: where they can only lack anchors, what is there is read, and
otherwise they are refused. -/
def TakesTorn (lacks : Bool) (read : Reading (List AnimationFrame))
    (frames : List AnimationFrame) (cut : Bytes) : Prop :=
  ∀ done, if lacks then
      ∃ kept taken left, read (.behind done cut) = .ok (kept, .behind (done ++ taken) left) ∧
        Remnant frames kept left
    else ∃ fault, read (.behind done cut) = .error fault

section TakesTorn

variable {α : Type} {a : α} {lacks : Bool} {first : Reading α}
  {next : α → Reading (List AnimationFrame)} {read : Reading (List AnimationFrame)}

theorem TakesTorn.behind (hfirst : Reads first bs a) (h : TakesTorn lacks (next a) frames cut) :
    TakesTorn lacks (first >>= next) frames (bs ++ cut) := by
  intro done
  have hnext := h (done ++ bs)
  rw [bind_of_ok (hfirst done cut)]
  cases lacks with
  | true =>
      rw [if_pos rfl] at hnext ⊢
      obtain ⟨kept, taken, left, hread, hremnant⟩ := hnext
      rw [List.append_assoc] at hread
      exact ⟨kept, bs ++ taken, left, hread, hremnant⟩
  | false => exact hnext

theorem TakesTorn.cons (hframes : frames ≠ []) (h : TakesTorn lacks read frames cut) :
    TakesTorn lacks (read >>= fun kept => pure (f :: kept)) (f :: frames) cut := by
  intro done
  have hread := h done
  have hlast : (f :: frames).getLast? = frames.getLast? := by
    obtain ⟨g, more, rfl⟩ := List.exists_cons_of_ne_nil hframes
    exact List.getLast?_cons_cons
  cases lacks with
  | true =>
      rw [if_pos rfl] at hread ⊢
      obtain ⟨kept, taken, left, hkept, hremnant⟩ := hread
      refine ⟨f :: kept, taken, left, bind_of_ok hkept, hremnant.length_left, fun h => ?_,
        fun h => ?_⟩
      · rw [anchorless, hlast] at h
        obtain ⟨rfl, hleft⟩ := hremnant.whole h
        exact ⟨rfl, hleft⟩
      · rw [anchorless, hlast] at h
        simpa using hremnant.other h
  | false =>
      rw [if_neg Bool.false_ne_true] at hread ⊢
      obtain ⟨fault, hfault⟩ := hread
      exact ⟨fault, bind_of_error hfault⟩

end TakesTorn

/-- The last frame may be torn. -/
theorem takesTorn_last (hf : f.Fits version) (hbs : f.Written version bs)
    (hcut : cut ++ missing = bs) (hmissing : missing ≠ []) :
    TakesTorn (lacksAnchors version [f] missing.length) (Reading.times (readFrame version) 1) [f]
      cut := by
  intro done
  have hframe := readFrame_cut hf hbs hcut hmissing done
  have hlacks : lacksAnchors version [f] missing.length =
      decide (missing.length ≤ Anchor.listSize version f.anchors.length) := rfl
  rw [hlacks]
  by_cases hshort : missing.length ≤ Anchor.listSize version f.anchors.length
  · rw [if_pos hshort] at hframe
    obtain ⟨g, taken, left, hread, hremnant⟩ := hframe
    rw [decide_eq_true hshort, if_pos rfl]
    exact ⟨[g], taken, left, bind_of_ok hread, hremnant⟩
  · rw [if_neg hshort] at hframe
    obtain ⟨fault, hfault⟩ := hframe
    rw [decide_eq_false hshort, if_neg Bool.false_ne_true]
    exact ⟨fault, bind_of_error hfault⟩

/-- Behind a torn frame too little is left for another one. -/
theorem times_readFrame_of_torn (hf : f.Fits version) (hbs : f.Written version bs)
    (hcut : cut ++ missing = bs) (hmissing : missing ≠ []) (done : Bytes) :
    ∃ fault, Reading.times (readFrame version) (n + 2) (.behind done cut) = .error fault := by
  have hframe := readFrame_cut hf hbs hcut hmissing done
  split at hframe
  · obtain ⟨_, taken, left, hread, hremnant⟩ := hframe
    obtain ⟨fault, hfault⟩ := readFrame_of_short version
      (Nat.lt_trans hremnant.length_left (by decide)) (done ++ taken)
    exact ⟨fault, (bind_of_ok hread).trans (bind_of_error (bind_of_error hfault))⟩
  · obtain ⟨fault, hfault⟩ := hframe
    exact ⟨fault, bind_of_error hfault⟩

theorem takesTorn_frames (hframes : ∀ f ∈ frames, f.Fits version)
    (hbs : WrittenInTurn (AnimationFrame.Written version) frames bs) (hcut : cut ++ missing = bs)
    (hmissing : missing ≠ []) :
    TakesTorn (lacksAnchors version frames missing.length)
      (Reading.times (readFrame version) frames.length) frames cut := by
  induction hbs generalizing cut with
  | nil => exact absurd (List.append_eq_nil_iff.mp hcut).2 hmissing
  | @cons f frames first bs hfirst hmore ih =>
      rw [List.forall_mem_cons] at hframes
      cases frames with
      | nil =>
          rw [hmore.eq_nil, List.append_nil] at hcut
          exact takesTorn_last hframes.1 hfirst hcut hmissing
      | cons g frames =>
          have hlast : lacksAnchors version (f :: g :: frames) missing.length =
              lacksAnchors version (g :: frames) missing.length := by
            rw [lacksAnchors, List.getLast?_cons_cons, ← lacksAnchors]
          rw [hlast]
          rcases eq_append_or_eq_append hcut with ⟨gap, hgap, hwhole, hlost⟩ | ⟨begun, rfl, hbegun⟩
          · rw [lacksAnchors_eq_false hmore (length_lt_of_eq_append hlost hgap)]
            exact times_readFrame_of_torn hframes.1 hfirst hwhole hgap
          · have hrest := ih hframes.2 hbegun
            exact (hrest.cons (List.cons_ne_nil g frames)).behind
              (AnimationFrame.reads hframes.1 hfirst)

theorem takesTorn_action {action : Action} (haction : Action.Fits version action)
    (hbs : Action.Written version action bs) (hcut : cut ++ missing = bs)
    (hmissing : missing ≠ []) :
    TakesTorn (lacksAnchors version action missing.length) (readAction version) action cut := by
  obtain ⟨frames, hframes, rfl⟩ := hbs
  have hcount := spells_readCount haction.length_le (by decide)
  rcases eq_append_or_eq_append hcut with ⟨gap, hgap, hwhole, hlost⟩ | ⟨begun, rfl, hbegun⟩
  · rw [lacksAnchors_eq_false hframes (length_lt_of_eq_append hlost hgap)]
    intro done
    obtain ⟨fault, hfault⟩ := hcount.refuses done cut gap hwhole hgap
    exact ⟨fault, bind_of_error hfault⟩
  · exact (takesTorn_frames haction.frames hframes hbegun hmissing).behind hcount.reads

/-! ### What is left of a torn action -/

theorem readActions_of_error {r : Reader} {fault : Reader.Fault}
    (h : readAction version r = .error fault) : readActions version n r = ([], r) := by
  cases n with
  | zero => rfl
  | succ n =>
      rw [readActions, h]
      split <;> rfl

theorem readAction_of_lt (version : Version) {r : Reader} (h : r.remaining < 4) :
    ∃ fault, readAction version r = .error fault := by
  obtain ⟨fault, hfault⟩ := record_of_lt Layout.int32 h
  exact ⟨fault, bind_of_error (bind_of_error hfault)⟩

theorem readActions_of_short (h : left.length < 4) (done : Bytes) :
    readActions version n (.behind done left) = ([], .behind done left) := by
  obtain ⟨fault, hfault⟩ := readAction_of_lt version
    (show (Reader.behind done left).remaining < 4 by rw [Reader.remaining_behind]; omega)
  exact readActions_of_error hfault

theorem readEvents_of_short (h : left.length < 4) (done : Bytes) :
    readEvents version (.behind done left) = ([], .behind done left) := by
  obtain ⟨fault, hfault⟩ := record_of_short Layout.uint32 h done
  rw [readEvents, hfault]
  split <;> rfl

theorem storedSpeeds_eq_nil {r : Reader} (h : r.remaining < 4) : storedSpeeds n r = [] := by
  cases n with
  | zero => rfl
  | succ n =>
      obtain ⟨fault, hfault⟩ := record_of_lt Layout.float32 h
      rw [storedSpeeds, hfault]

theorem storedSpeeds_eq_nil_iff (done : Bytes) :
    storedSpeeds (n + 1) (.behind done left) = [] ↔ left.length < 4 := by
  by_cases h : left.length < 4
  · have hleft : (Reader.behind done left).remaining < 4 := by
      rw [Reader.remaining_behind]
      omega
    exact iff_of_true (storedSpeeds_eq_nil hleft) h
  · obtain ⟨speed, r, hread⟩ :=
      exists_record_of_le Layout.float32 (Nat.not_lt.mp h) done
    simp [storedSpeeds, hread, h]

/-- Behind whole actions, a torn one is passed over or read without its anchors. -/
theorem readActions_torn {before : List Action} {action : Action} {front octets : Bytes}
    (hactions : ∀ action ∈ before, Action.Fits version action)
    (haction : Action.Fits version action)
    (hfront : WrittenInTurn (Action.Written version) before front)
    (hbs : Action.Written version action octets) (hcut : cut ++ missing = octets)
    (hmissing : missing ≠ []) (done : Bytes) :
    if lacksAnchors version action missing.length then
      ∃ kept more r left,
        readActions version (before.length + (n + 1)) (.behind done (front ++ cut)) =
          (before ++ kept :: more, r) ∧ Remnant action kept left ∧
            (left.length < 4 → more = [] ∧ ∃ taken, r = .behind taken left)
    else
      readActions version (before.length + (n + 1)) (.behind done (front ++ cut)) =
        (before, .behind (done ++ front) cut) := by
  have htorn := takesTorn_action haction hbs hcut hmissing (done ++ front)
  rw [readActions_append hactions hfront]
  split at htorn
  next hlacks =>
    obtain ⟨kept, taken, left, hread, hremnant⟩ := htorn
    have hpos : 0 < (Reader.behind (done ++ front) cut).remaining := by
      refine Int.not_le.mp fun hle => ?_
      obtain ⟨fault, hfault⟩ := readAction_of_lt version (Int.lt_of_le_of_lt hle (by decide))
      rw [hfault] at hread
      cases hread
    rw [if_pos hlacks, readActions_of_ok hpos hread]
    refine ⟨kept, _, _, left, rfl, hremnant, fun hshort => ?_⟩
    rw [readActions_of_short hshort]
    exact ⟨rfl, _, rfl⟩
  next hlacks =>
    obtain ⟨fault, hfault⟩ := htorn
    rw [if_neg hlacks, readActions_of_error hfault, List.append_nil]

/-- The least number of octets behind the actions of which an event or a speed is read. -/
def tableRoom (version : Version) : Nat :=
  4 + if version.atLeast 2 2 then 4 else eventSize

/-- Nothing is read of a torn action exactly where too little of it is left. -/
theorem read_torn_iff {action : Action} (haction : Action.Fits version action)
    (hbs : Action.Written version action bs) (hcut : cut ++ missing = bs) (hmissing : missing ≠ [])
    (hnew : version.atLeast 2 1 = true) (done : Bytes) :
    ((readEvents version (.behind done cut)).1 = [] ∧ (version.atLeast 2 2 = true →
      storedSpeeds (n + 1) (readEvents version (.behind done cut)).2 = [])) ↔
      cut.length < tableRoom version := by
  have hroom : 4 + 4 ≤ tableRoom version ∧ tableRoom version ≤ 4 + eventSize := by
    unfold tableRoom
    split <;> decide
  obtain ⟨frames, hframes, rfl⟩ := hbs
  rcases eq_append_or_eq_append hcut with ⟨gap, hgap, hwhole, -⟩ | ⟨begun, rfl, hbegun⟩
  · have hshort := length_lt_of_append_eq hwhole hgap
    rw [length_countOctets] at hshort
    rw [readEvents_of_short hshort]
    exact iff_of_true ⟨rfl, fun _ => (storedSpeeds_eq_nil_iff done).mpr hshort⟩ (by omega)
  have hlength : (countOctets action.length ++ begun).length = 4 + begun.length := by
    rw [List.length_append, length_countOctets]
  have hcount : action.length < Nat.pow 2 32 := Nat.lt_of_le_of_lt haction.length_le (by decide)
  by_cases hevent : eventSize ≤ begun.length
  · -- the action has a frame, so that the first octets of it are read as an event
    have hpos : 0 < action.length := by
      refine List.length_pos_iff.mpr fun hnil => ?_
      rw [hnil] at hframes
      rw [hframes.eq_nil] at hbegun
      exact hmissing (List.append_eq_nil_iff.mp hbegun).2
    have hfits : 0 < begun.length / eventSize := Nat.div_pos hevent (by decide)
    obtain ⟨names, r, hnames, hsome⟩ := exists_times_name_of_le eventSize
      (min action.length (begun.length / eventSize))
      (Nat.le_trans (Nat.mul_le_mul_left _ (Nat.min_le_right _ _)) (Nat.mul_div_le _ _))
      (done ++ countOctets action.length)
    rw [readEvents_countOctets_append hnew hcount hnames]
    refine iff_of_false (fun h => ?_) (by omega)
    rw [show names = [] from h.1, List.length_nil] at hsome
    omega
  · have hnone : begun.length / eventSize = 0 := Nat.div_eq_of_lt (Nat.not_le.mp hevent)
    have hnil : WrittenInTurn (NameWritten eventSize) ([] : List String) [] := .nil
    have hread := readEvents_append hnew (by simp) hnil hcount done begun
      (by rw [List.nil_append, hnone, Nat.min_zero, List.length_nil])
    rw [List.nil_append] at hread
    rw [hread, storedSpeeds_eq_nil_iff, hlength, tableRoom]
    simp only [true_and]
    split
    next hspeeds =>
      rw [forall_prop_of_true hspeeds]
      omega
    next hold => exact iff_of_true (fun h => absurd h hold) (by omega)

/-- The speeds that are read of a file. -/
def speedsRead (bs : Bytes) : List Binary32 :=
  match decodeHeader bs with
  | .error _ => []
  | .ok (version, count) =>
    let (actions, r) := readActions version count (Reader.ofBytes bs headerSize)
    if version.atLeast 2 2 then storedSpeeds actions.length (readEvents version r).2 else []

theorem speedsRead_of_header {count : Nat} {actions : List Action} {r : Reader}
    (hheader : decodeHeader bs = .ok (version, count))
    (hactions : readActions version count (.ofBytes bs headerSize) = (actions, r)) :
    speedsRead bs =
      if version.atLeast 2 2 then storedSpeeds actions.length (readEvents version r).2 else [] := by
  rw [speedsRead, hheader]
  simp only [hactions]

/-- Whether a torn action of which so many octets are kept does no harm. -/
def Harmless (version : Version) (action : Action) (kept : Nat) : Prop :=
  if lacksAnchors version action (Action.size version action - kept) then
    anchorless action = true
  else kept < tableRoom version

end Animation

/-! ### Cut files -/

namespace StoredAnimation

open Animation

variable {a : StoredAnimation} {b : Animation}

/-- The action that is torn where only so many octets of a file are kept, and how many of the
octets are its own. -/
def tornAction? (a : StoredAnimation) (size : Nat) : Option (Action × Nat) :=
  torn? (Action.size a.version) a.actions (size - headerSize)

/-- What a cut file should give: actions and events in front of the cut only, and nothing of a
torn action. -/
structure Salvaged (a : StoredAnimation) (cut : Bytes) (b : Animation) : Prop where
  actions : b.actions <+: a.actions
  events : b.events <+: a.events
  tables : (a.tornAction? cut.length).isSome = true → b.events = [] ∧ speedsRead cut = []

/-- A file that is cut behind its actions still gives all of them, and events in front of the
cut. -/
theorem readEvents_cut (ha : a.Fits) (hnew : a.version.atLeast 2 1 = true) {events : Bytes}
    (hevents : a.EventsWritten events) {rest : Bytes} (hcut : cut ++ missing = events ++ rest)
    (done : Bytes) : (readEvents a.version (.behind done cut)).1 <+: a.events := by
  rw [EventsWritten, if_pos hnew] at hevents
  obtain ⟨names, hnames, rfl⟩ := hevents
  rw [List.append_assoc] at hcut
  rcases eq_append_or_eq_append hcut with ⟨gap, hgap, hcount, -⟩ | ⟨begun, rfl, hbegun⟩
  · have hshort := length_lt_of_append_eq hcount hgap
    rw [length_countOctets] at hshort
    rw [readEvents_of_short hshort]
    exact List.nil_prefix
  · obtain ⟨front, back, hfront, -, rfl⟩ :=
      hnames.exists_take_drop (min a.events.length (begun.length / eventSize))
    have hlength : front.length =
        eventSize * min a.events.length (begun.length / eventSize) := by
      rw [hfront.length_eq fun _ _ h => h.choose_spec.2.2, List.length_take]
      congr 1
      omega
    have hroom : front.length ≤ begun.length := by
      rw [hlength]
      exact Nat.le_trans (Nat.mul_le_mul_left _ (Nat.min_le_right _ _)) (Nat.mul_div_le _ _)
    obtain ⟨more, rfl⟩ : front <+: begun := by
      refine List.prefix_of_prefix_length_le ?_ ⟨missing, hbegun⟩ hroom
      rw [List.append_assoc]
      exact List.prefix_append _ _
    have hread := readEvents_append hnew
      (fun name hname => (ha.names name (List.mem_of_mem_take hname)).1) hfront ha.events_lt done
      more (by rw [List.length_take]; omega)
    rw [hread]
    exact List.take_prefix _ _

theorem decode_of_short (h : bs.length < headerSize) : decode bs = .error .tooSmall := by
  have hheader : decodeHeader bs = .error .tooSmall := by
    unfold decodeHeader
    split
    · exact if_pos (by simpa using h)
    · rfl
  rw [decode, hheader]
  rfl

/-- What is decoded of a file whose header is whole. -/
theorem parts_of_decode (ha : a.Fits) {filler body : Bytes} (hfiller : filler.length = 10)
    {actions : List Action} {r : Reader}
    (hactions : readActions a.version a.actions.length (.behind (a.headerOctets filler) body) =
      (actions, r)) (hread : decode (a.headerOctets filler ++ body) = .ok b) :
    actions ≠ [] ∧ b.actions = actions ∧ b.events = (readEvents a.version r).1 ∧
      speedsRead (a.headerOctets filler ++ body) =
        if a.version.atLeast 2 2 then storedSpeeds actions.length (readEvents a.version r).2
        else [] := by
  rw [← behind_headerOctets hfiller] at hactions
  have hheader := decodeHeader_append ha hfiller body
  rw [decode_of_header hheader hactions] at hread
  split at hread
  · cases hread
  next hsome =>
    obtain rfl := Except.ok.inj hread
    exact ⟨by simpa using hsome, rfl, rfl, speedsRead_of_header hheader hactions⟩

section Torn

variable {front octets kept lost : Bytes} {before after : List Action} {action : Action}

/-- Where a torn action is kept, nothing else goes wrong if it has lost nothing. -/
theorem salvaged_iff_anchorless (hsplit : a.actions = before ++ action :: after)
    {damaged : Action} {more : List Action} {r : Reader} {left : Bytes}
    (hremnant : Remnant action damaged left)
    (hshort : left.length < 4 → more = [] ∧ ∃ taken, r = .behind taken left)
    (hb : b.actions = before ++ damaged :: more) (hevents : b.events = (readEvents a.version r).1)
    (hspeeds : speedsRead cut =
      if a.version.atLeast 2 2 then
        storedSpeeds (before ++ damaged :: more).length (readEvents a.version r).2 else []) :
    a.Salvaged cut b ↔ anchorless action = true := by
  cases hanchors : anchorless action with
  | true =>
      obtain ⟨rfl, hleft⟩ := hremnant.whole hanchors
      obtain ⟨rfl, taken, rfl⟩ := hshort hleft
      rw [readEvents_of_short hleft] at hevents hspeeds
      have hnone : storedSpeeds (before ++ [damaged]).length (.behind taken left) = [] := by
        refine storedSpeeds_eq_nil ?_
        rw [Reader.remaining_behind]
        omega
      rw [hnone, ite_self] at hspeeds
      refine iff_of_true ⟨?_, hevents ▸ List.nil_prefix, fun _ => ⟨hevents, hspeeds⟩⟩ rfl
      rw [hb, hsplit, List.prefix_append_right_inj]
      exact ⟨after, rfl⟩
  | false =>
      refine iff_of_false (fun h => ?_) Bool.false_ne_true
      have hprefix := h.actions
      rw [hb, hsplit, List.prefix_append_right_inj, List.cons_prefix_cons] at hprefix
      exact hremnant.other hanchors hprefix.1

/-- Where a torn action is passed over, it does harm by what is read of it as events and speeds. -/
theorem salvaged_iff_lt_tableRoom (hnew : a.version.atLeast 2 1 = true)
    (hsplit : a.actions = before ++ action :: after) (hfits : Action.Fits a.version action)
    (haction : Action.Written a.version action octets) (hkept : kept ++ lost = octets)
    (hlost : lost ≠ []) (htorn : (a.tornAction? cut.length).isSome = true) {done : Bytes}
    (hne : before ≠ []) (hb : b.actions = before)
    (hevents : b.events = (readEvents a.version (.behind done kept)).1)
    (hspeeds : speedsRead cut =
      if a.version.atLeast 2 2 then
        storedSpeeds before.length (readEvents a.version (.behind done kept)).2 else []) :
    a.Salvaged cut b ↔ kept.length < tableRoom a.version := by
  obtain ⟨first, others, rfl⟩ := List.exists_cons_of_ne_nil hne
  rw [← read_torn_iff (n := others.length) hfits haction hkept hlost hnew done, ← hevents]
  constructor
  · intro h
    obtain ⟨hnone, hslow⟩ := h.tables htorn
    refine ⟨hnone, fun hnewer => ?_⟩
    rw [hspeeds, if_pos hnewer] at hslow
    exact hslow
  · intro h
    have hslow : speedsRead cut = [] := by
      rw [hspeeds]
      split
      next hnewer => exact h.2 hnewer
      next => rfl
    refine ⟨?_, h.1 ▸ List.nil_prefix, fun _ => ⟨h.1, hslow⟩⟩
    rw [hb, hsplit]
    exact List.prefix_append _ _

/-- A file that is cut in an action gives what it should exactly where the torn action does no
harm. -/
theorem salvaged_iff_harmless (ha : a.Fits) (hnew : a.version.atLeast 2 1 = true)
    {filler : Bytes} (hfiller : filler.length = 10) (hsplit : a.actions = before ++ action :: after)
    (hfront : WrittenInTurn (Action.Written a.version) before front)
    (haction : Action.Written a.version action octets) (hkept : kept ++ lost = octets)
    (hlost : lost ≠ [])
    (htorn : a.tornAction? (a.headerOctets filler ++ (front ++ kept)).length =
      some (action, kept.length))
    (hread : decode (a.headerOctets filler ++ (front ++ kept)) = .ok b) :
    a.Salvaged (a.headerOctets filler ++ (front ++ kept)) b ↔
      Harmless a.version action kept.length := by
  have hlength : a.actions.length = before.length + (after.length + 1) := by
    rw [hsplit, List.length_append, List.length_cons]
  have hfits := ha.actions
  rw [hsplit, List.forall_mem_append, List.forall_mem_cons] at hfits
  have hmissing : Action.size a.version action - kept.length = lost.length := by
    rw [← Action.length_of_written haction, ← hkept, List.length_append, Nat.add_sub_cancel_left]
  have hactions := readActions_torn (n := after.length) hfits.1 hfits.2.1 hfront haction hkept hlost
    (a.headerOctets filler)
  rw [← hlength] at hactions
  rw [Harmless, hmissing]
  split at hactions
  next hlacks =>
    obtain ⟨damaged, more, r, left, hall, hremnant, hshort⟩ := hactions
    obtain ⟨-, hb, hevents, hspeeds⟩ := parts_of_decode ha hfiller hall hread
    rw [if_pos hlacks]
    exact salvaged_iff_anchorless hsplit hremnant hshort hb hevents hspeeds
  next hlacks =>
    obtain ⟨hne, hb, hevents, hspeeds⟩ := parts_of_decode ha hfiller hactions hread
    rw [if_neg hlacks]
    exact salvaged_iff_lt_tableRoom hnew hsplit hfits.2.1 haction hkept hlost
      (Option.isSome_of_eq_some htorn) hne hb hevents hspeeds

end Torn

/-- A file that is cut gives what it should exactly where it is not torn in an action, or where the
torn action does no harm. -/
theorem salvaged_iff (ha : a.Fits) (hnew : a.version.atLeast 2 1 = true) (hbs : a.Written bs)
    (hcut : cut <+: bs) (hread : decode cut = .ok b) :
    a.Salvaged cut b ↔
      ∀ action kept, a.tornAction? cut.length = some (action, kept) →
        Harmless a.version action kept := by
  obtain ⟨missing, hcut⟩ := hcut
  obtain ⟨filler, actions, events, hfiller, hactions, hevents, rfl⟩ := hbs
  have hheader : (a.headerOctets filler).length = headerSize := length_headerOctets hfiller
  rcases eq_append_or_eq_append hcut with ⟨gap, hgap, hwhole, -⟩ | ⟨body, rfl, hbody⟩
  · have hshort := length_lt_of_append_eq hwhole hgap
    rw [hheader] at hshort
    rw [decode_of_short hshort] at hread
    cases hread
  have htorn : a.tornAction? (a.headerOctets filler ++ body).length =
      torn? (Action.size a.version) a.actions body.length := by
    rw [tornAction?, List.length_append, hheader, Nat.add_sub_cancel_left]
  have hwritten : ∀ action octets, Action.Written a.version action octets →
      octets.length = Action.size a.version action := fun _ _ => Action.length_of_written
  rcases eq_append_or_eq_append hbody with ⟨gap, hgap, hwhole, -⟩ | ⟨begun, rfl, hbegun⟩
  · obtain ⟨before, action, after, front, octets, kept, lost, hsplit, hbefore, haction, rfl, hkept,
      hlost, hfound⟩ := hactions.exists_torn hwritten hwhole hgap
    rw [← htorn] at hfound
    rw [salvaged_iff_harmless ha hnew hfiller hsplit hbefore haction hkept hlost hfound hread,
      hfound]
    refine ⟨fun h other size hsome => ?_, fun h => h action _ rfl⟩
    obtain ⟨rfl, rfl⟩ := Prod.mk.inj (Option.some.inj hsome)
    exact h
  · -- all actions are there, and none of them is torn
    have hnone : a.tornAction? (a.headerOctets filler ++ (actions ++ begun)).length = none := by
      rw [htorn, torn?_eq_none]
      rw [← hactions.length_eq_total hwritten, List.length_append]
      exact Nat.le_add_right _ _
    have hall := readActions_append ha.actions hactions 0 (a.headerOctets filler) begun
    rw [Nat.add_zero, readActions, List.append_nil] at hall
    obtain ⟨-, hb, hbevents, -⟩ := parts_of_decode ha hfiller hall hread
    refine iff_of_true ⟨hb ▸ List.prefix_rfl, ?_, ?_⟩ ?_
    · rw [hbevents]
      exact readEvents_cut ha hnew hevents hbegun _
    · rw [hnone]
      exact fun h => absurd h (by decide)
    · rw [hnone]
      exact fun _ _ h => absurd h (by simp)

/-- The action of one frame with one layer. -/
def bowing : Action :=
  [⟨[⟨0, 0, 0, false, .one, .one, 0, 0, 0, 0, (255, 255, 255, 255)⟩], -1, []⟩]

/-- An animation of an action without frames and one with a frame. -/
def bow : StoredAnimation where
  version := ⟨2, 1⟩
  actions := [[], bowing]
  events := []
  speeds := []

/-- The octets of its file, with letters where octets have no meaning. -/
def bowOctets : Bytes :=
  bow.headerOctets (List.replicate 10 0x42) ++ (countOctets 0 ++ (countOctets 1 ++
    (List.replicate 32 0x41 ++ (countOctets 1 ++ (List.replicate 16 0 ++
      ([255, 255, 255, 255] ++ (Layout.float32.encode .one ++ (List.replicate 8 0 ++
        (Layout.int32.encode (-1) ++ countOctets 0)))))))))

theorem fits_bow : bow.Fits := by
  refine ⟨by decide, by decide, by decide, by decide, ?_, by decide, by decide, ?_, by decide⟩
  · intro action haction
    simp only [bow, List.mem_cons, List.not_mem_nil, or_false] at haction
    rcases haction with rfl | rfl
    · exact ⟨by decide, fun f hf => absurd hf List.not_mem_nil⟩
    · refine ⟨by decide, fun f hf => ?_⟩
      obtain rfl := List.mem_singleton.mp hf
      refine ⟨by decide, by decide, fun l hl => ?_, by decide, by decide⟩
      obtain rfl := List.mem_singleton.mp hl
      exact ⟨by decide, by decide, by decide⟩
  · exact fun name hname => absurd hname List.not_mem_nil

theorem written_bow : bow.Written bowOctets := by
  have hempty : Action.Written bow.version [] (countOctets 0 ++ []) := ⟨[], .nil, rfl⟩
  have hanchors : Anchor.ListWritten bow.version [] [] := by
    rw [Anchor.ListWritten, if_neg (by decide)]
  have hframes : WrittenInTurn (AnimationFrame.Written bow.version) bowing _ :=
    .cons ⟨_, [], ⟨List.replicate 32 0x41, _, rfl, .cons ⟨0, rfl, rfl⟩ .nil, rfl⟩, hanchors, rfl⟩
      .nil
  have hevents : bow.EventsWritten (countOctets 0) := by
    rw [EventsWritten, if_pos (by decide)]
    exact ⟨[], .nil, rfl⟩
  refine ⟨List.replicate 10 0x42, _, _, rfl, .cons hempty (.cons ⟨_, hframes, rfl⟩ .nil), hevents,
    ?_⟩
  decide +kernel

theorem salvaged_iff_of_bow :
    bow.Fits ∧ bow.Written bowOctets ∧
      bow.tornAction? (bowOctets.take 40).length = some (bowing, 20) ∧
      ∃ b, decode (bowOctets.take 40) = .ok b ∧ bow.Salvaged (bowOctets.take 40) b := by
  have htorn : bow.tornAction? (bowOctets.take 40).length = some (bowing, 20) := by
    decide +kernel
  have haccepted : (decode (bowOctets.take 40)).toOption.isSome = true := by
    decide +kernel
  cases hread : decode (bowOctets.take 40) with
  | error fault =>
      rw [hread] at haccepted
      cases haccepted
  | ok b =>
      refine ⟨fits_bow, written_bow, htorn, b, rfl, ?_⟩
      refine (salvaged_iff fits_bow (by decide) written_bow (List.take_prefix 40 _) hread).mpr ?_
      intro action kept hsome
      rw [htorn] at hsome
      obtain ⟨rfl, rfl⟩ := Prod.mk.inj (Option.some.inj hsome)
      rw [Harmless, if_neg (by decide +kernel)]
      decide

/-- Where more of the torn action is left, its first octets are read as an event. -/
theorem not_salvaged_of_bow :
    bow.Fits ∧ bow.Written bowOctets ∧ bow.events = [] ∧
      ∃ b, decode (bowOctets.take 80) = .ok b ∧ b.events.length = 1 ∧
        ¬ bow.Salvaged (bowOctets.take 80) b := by
  have hevents : (decode (bowOctets.take 80)).toOption.map (fun b => b.events.length) = some 1 := by
    decide +kernel
  cases hread : decode (bowOctets.take 80) with
  | error fault =>
      rw [hread] at hevents
      cases hevents
  | ok b =>
      rw [hread] at hevents
      have hone : b.events.length = 1 := Option.some.inj hevents
      refine ⟨fits_bow, written_bow, rfl, b, rfl, hone, fun h => ?_⟩
      have hnone : b.events.length ≤ bow.events.length := h.events.length_le
      rw [hone] at hnone
      exact absurd hnone (by decide)

end StoredAnimation

end ArchiveExport
