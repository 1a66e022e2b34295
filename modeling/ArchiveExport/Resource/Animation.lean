import ArchiveExport.Resource.Reader
import ArchiveExport.Resource.Version
import ArchiveExport.Text.Quoted

/-!
# Animations

An animation file lists actions; an action lists frames; a frame stacks layers, each of which
places a frame of the companion sprite. Later versions add to a layer its tint, scale and
rotation (2.0), behind the actions a table of sound events (2.1) and one speed per action (2.2),
to a frame its anchors (2.3), and to a layer a vertical scale (2.4) and a size (2.5).

A damaged action ends the list of actions at the one before it.
-/

namespace ArchiveExport

/-- A sprite frame placed inside an animation frame. -/
structure Layer where
  x : Int32
  y : Int32
  spriteIndex : Int32
  mirror : Bool
  scaleX : Binary32 := .one
  scaleY : Binary32 := .one
  rotation : Int32 := 0
  spriteType : Int32 := 0
  width : Int32 := 0
  height : Int32 := 0
  color : UInt8 × UInt8 × UInt8 × UInt8 := (255, 255, 255, 255)
  deriving DecidableEq

/-- A point at which another animation is attached. -/
structure Anchor where
  x : Int32
  y : Int32
  attr : Int32
  deriving DecidableEq

/-- The layers of one moment, back to front, with the number of a sound event or -1. -/
structure AnimationFrame where
  layers : List Layer
  event : Int32 := -1
  anchors : List Anchor := []
  deriving DecidableEq

/-- A list of frames to be played in turn. -/
abbrev Action : Type := List AnimationFrame

/-- A decoded animation. Every action has an interval in milliseconds, the delay of each of its
frames. -/
structure Animation where
  version : Version
  actions : List Action
  events : List String
  intervals : List Binary64

namespace Animation

/-- Why octets are no animation. -/
inductive Fault where
  | tooSmall
  | signature (octets : Bytes)
  | version (v : Version)
  | actionCount (n : Nat)
  | noActions
  deriving DecidableEq

/-- The fault in words. -/
def Fault.message : Fault → String
  | .tooSmall => "file too small"
  | .signature octets => s!"invalid ACT signature: {Text.quoteBytes octets}"
  | .version v => s!"unsupported ACT version: {v.text}"
  | .actionCount n => s!"invalid action count: {n}"
  | .noActions => "no readable actions"

/-- The most actions of a file. -/
def maxActions : Nat := 200

/-- The most frames of an action. -/
def maxFrames : Nat := 200

/-- The most layers of a frame. -/
def maxLayers : Nat := 100

/-- The most anchors of a frame; a larger count is read as none. -/
def maxAnchors : Nat := 2000

/-- The number of octets in front of the actions. -/
def headerSize : Nat := 16

/-- The number of octets of an event's name. -/
def eventSize : Nat := 40

/-- The interval for speed one, in milliseconds. -/
def unitInterval : Binary64 := .ofInt 25

/-- The interval of a file without speeds, in milliseconds. -/
def standardInterval : Binary64 := .ofInt 150

/-- Read a layer. -/
def readLayer (version : Version) : Reading Layer := do
  let (x, y, spriteIndex, mirror) ← Reading.record Layout.int32.quad
  let layer : Layer := { x, y, spriteIndex, mirror := mirror ≠ 0 }
  if !version.atLeast 2 0 then
    return layer
  let color ← Reading.record Layout.uint8.quad
  let scaleX ← Reading.record Layout.float32
  let scaleY ← if version.atLeast 2 4 then Reading.record Layout.float32 else pure scaleX
  let (rotation, spriteType) ← Reading.record (Layout.int32.pair Layout.int32)
  let (width, height) ←
    if version.atLeast 2 5 then Reading.record (Layout.int32.pair Layout.int32) else pure (0, 0)
  return { layer with color, scaleX, scaleY, rotation, spriteType, width, height }

/-- Read an anchor, which starts with four octets of no meaning. -/
def readAnchor : Reading Anchor := do
  let (_, x, y, attr) ← Reading.record (Layout.uint32.pair Layout.int32.triple)
  return ⟨x, y, attr⟩

/-- Read the anchors of a frame, none where not even their count is left. -/
def readAnchors (version : Version) : Reading (List Anchor) := do
  if !version.atLeast 2 3 || (← Reading.remaining) < 4 then
    return []
  let count ← Reading.record Layout.uint32
  Reading.timesWhile 16 readAnchor (if maxAnchors < count.toNat then 0 else count.toNat)

/-- Read a count that must lie between zero and `limit`. -/
def readCount (limit : Nat) : Reading Nat := do
  let count ← Reading.record Layout.int32
  if 0 ≤ count.toInt ∧ count.toInt ≤ limit then
    return count.toInt.toNat
  Reading.badCount count.toInt

/-- Read a frame, which starts with 32 octets of no meaning. -/
def readFrame (version : Version) : Reading AnimationFrame := do
  Reading.skip 32
  let layers ← Reading.times (readLayer version) (← readCount maxLayers)
  let event ← if version.atLeast 2 0 then Reading.record Layout.int32 else pure (-1)
  let anchors ← readAnchors version
  return { layers, event, anchors }

/-- Read an action. -/
def readAction (version : Version) : Reading Action := do
  Reading.times (readFrame version) (← readCount maxFrames)

/-- Read up to `count` actions, stopping in front of the first that cannot be read. -/
def readActions (version : Version) : Nat → Reader → List Action × Reader
  | 0, r => ([], r)
  | count + 1, r =>
    if r.remaining ≤ 0 then ([], r)
    else
      match readAction version r with
      | .error _ => ([], r)
      | .ok (action, r) =>
        let (actions, r) := readActions version count r
        (action :: actions, r)

/-- The events behind the actions and what is left behind them; only whole entries count. -/
def readEvents (version : Version) (r : Reader) : List String × Reader :=
  if version.atLeast 2 1 then
    match Reading.record Layout.uint32 r with
    | .ok (count, r) =>
      let whole := r.remaining.toNat / eventSize
      match Reading.times (Reading.name eventSize) (min count.toNat whole) r with
      | .ok result => result
      | .error _ => ([], r)
    | .error _ => ([], r)
  else
    ([], r)

/-- The interval of a stored speed; one that is not positive counts as speed one. -/
def interval (speed : Binary32) : Binary64 :=
  let product := speed.toBinary64.mul unitInterval
  if product.isPositive then product else unitInterval

/-- The intervals of as many actions as the list has, from a table of speeds. A short table
repeats its last speed. -/
def readIntervals : Binary32 → List Action → Reader → List Binary64
  | _, [], _ => []
  | speed, _ :: actions, r =>
    match Reading.record Layout.float32 r with
    | .ok (speed, r) => interval speed :: readIntervals speed actions r
    | .error _ => interval speed :: readIntervals speed actions r

/-- The intervals of all actions. -/
def intervalsFor (version : Version) (actions : List Action) (r : Reader) : List Binary64 :=
  if version.atLeast 2 2 && 0 < r.remaining then readIntervals .one actions r
  else actions.map fun _ => standardInterval

/-- Read the signature, the version and the number of actions. -/
def decodeHeader : Bytes → Except Fault (Version × Nat)
  | s0 :: s1 :: minor :: major :: c0 :: c1 :: rest => do
    if rest.length + 6 < headerSize then throw .tooSmall
    if s0 ≠ 0x41 ∨ s1 ≠ 0x43 then throw (.signature [s0, s1])
    let version : Version := ⟨major.toNat, minor.toNat⟩
    if version.major < 1 ∨ 3 < version.major then throw (.version version)
    let count := Bytes.toNat [c0, c1]
    if maxActions < count then throw (.actionCount count)
    return (version, count)
  | _ => throw .tooSmall

/-- The animation in a file. -/
def decode (bs : Bytes) : Except Fault Animation := do
  let (version, count) ← decodeHeader bs
  let (actions, r) := readActions version count (Reader.ofBytes bs headerSize)
  if actions.isEmpty then throw .noActions
  let (events, r) := readEvents version r
  return ⟨version, actions, events, intervalsFor version actions r⟩

/-- The actions with their intervals. -/
def timedActions (a : Animation) : List (Action × Binary64) :=
  a.actions.zip a.intervals

/-- The frame of an action's number and its own, with its delay. -/
def frame? (a : Animation) (action frame : Int) : Option (AnimationFrame × Binary64) :=
  if action < 0 ∨ frame < 0 then none
  else
    match a.timedActions[action.toNat]? with
    | some (frames, interval) => (frames[frame.toNat]?).map fun f => (f, interval)
    | none => none

/-- The time to play every frame of an action once, or none for an action without frames. -/
def duration? (action : Action) (interval : Binary64) : Option Binary64 :=
  if action.isEmpty then none
  else some (action.foldl (fun total _ => total.add interval) (Binary64.zero false))

end Animation

end ArchiveExport
