import ArchiveExport.Bytes.Basic
import ArchiveExport.Resource.Palette
import ArchiveExport.Resource.Reader
import ArchiveExport.Resource.Version
import ArchiveExport.Text.Quoted

/-!
# Sprites

A sprite file holds two lists of frames: indexed frames, whose pixels are palette indices, and
full-colour frames, whose pixels are stored as opacity, red, green, blue with the bottom row
first. When there are indexed frames and the file is long enough, its last 1024 octets are the
palette. From version 2.1 on indexed frames are shortened by their runs of zeros: a zero is followed
by the length of its run, every other octet stands for itself, and a zero at the very end stands for
itself too. What they are expanded to is cut or filled with zeros to the size of the frame.

Frame data may end early: the list then ends with the frames read so far, which is worth a
warning where not even a frame's dimensions are left.
-/

namespace ArchiveExport

namespace RunLength

/-- The octets that an encoded string stands for. -/
def expand : Bytes → Bytes
  | [] => []
  | [b] => [b]
  | b :: count :: rest =>
    if b = 0 then List.replicate count.toNat 0 ++ expand rest else b :: expand (count :: rest)

/-- Expand onto the reversed octets `out`, of which there are `size`, until `limit` is reached. -/
def expandOnto (limit : Nat) : Nat → Bytes → Bytes → Bytes
  | _, out, [] => out.reverse
  | size, out, [b] => if limit ≤ size then out.reverse else (b :: out).reverse
  | size, out, b :: count :: rest =>
    if limit ≤ size then out.reverse
    else if b = 0 then
      expandOnto limit (size + count.toNat) (List.replicate count.toNat 0 ++ out) rest
    else expandOnto limit (size + 1) (b :: out) (count :: rest)

/-- The first `size` octets that an encoded string stands for, filled up with zeros. -/
def decompress (encoded : Bytes) (size : Nat) : Bytes :=
  (expandOnto size 0 [] encoded).fit size

/-- A shortened form of a pixel string: zeros collected in runs of at most 255. -/
inductive Encodes : Bytes → Bytes → Prop
  | nil : Encodes [] []
  | run {e p} (count : UInt8) (h : Encodes e p) :
      Encodes (0 :: count :: e) (List.replicate count.toNat 0 ++ p)
  | literal {e p} (b : UInt8) (hb : b ≠ 0) (h : Encodes e p) : Encodes (b :: e) (b :: p)

end RunLength

/-- A sprite's frames store palette indices or full colours. -/
inductive FrameKind where
  | indexed
  | rgba
  deriving DecidableEq

namespace FrameKind

/-- The kind's name. -/
def text : FrameKind → String
  | .indexed => "indexed"
  | .rgba => "rgba"

/-- How many octets a pixel takes. -/
def pixelSize : FrameKind → Nat
  | .indexed => 1
  | .rgba => 4

end FrameKind

/-- One bitmap of a sprite; its data may be cut. -/
structure SpriteFrame where
  width : Nat
  height : Nat
  kind : FrameKind
  data : Bytes

namespace SpriteFrame

/-- Whether a frame has no pixels. -/
def isEmpty (f : SpriteFrame) : Bool :=
  f.width = 0 || f.height = 0

end SpriteFrame

/-- A decoded sprite. Frames are numbered through both lists, the indexed ones first. -/
structure Sprite where
  version : Version
  indexed : List SpriteFrame
  rgba : List SpriteFrame
  palette : Palette

namespace Sprite

/-- What is worth a warning about a sprite. -/
inductive Warning where
  | ranOut (kind : FrameKind) (index : Nat)
  | tooLarge (width height : Nat)
  deriving DecidableEq

/-- The warning as a line of text. -/
def Warning.message : Warning → String
  | .ranOut kind index => s!"[WARN] Ran out of data reading {kind.text} frame {index}"
  | .tooLarge width height => s!"[WARN] Frame too large: {width}x{height}, skipped"

/-- Why octets are no sprite. -/
inductive Fault where
  | tooSmall
  | signature (octets : Bytes)
  | version (v : Version)
  | headerCut
  | frameCount (indexed rgba : Nat)
  | noFrames
  deriving DecidableEq

/-- The fault in words. -/
def Fault.message : Fault → String
  | .tooSmall => "file too small"
  | .signature octets => s!"invalid SPR signature: {Text.quoteBytes octets}"
  | .version v => s!"unsupported SPR version: {v.text}"
  | .headerCut => "header truncated"
  | .frameCount indexed rgba => s!"unusually high frame count: {indexed}+{rgba}"
  | .noFrames => "SPR contains 0 frames"

/-- The most frames of a kind that a file may announce. -/
def maxFrames : Nat := 5000

/-- The largest width and height of a frame that is drawn. -/
def maxDrawn : Nat := 2048

/-- The octets in front of the frames: what the version and the two counts say. -/
structure Header where
  version : Version
  indexed : Nat
  rgba : Nat
  size : Nat

/-- Read the header of a sprite file. -/
def decodeHeader : Bytes → Except Fault Header
  | s0 :: s1 :: minor :: major :: i0 :: i1 :: rest => do
    if s0 ≠ 0x53 ∨ s1 ≠ 0x50 then throw (.signature [s0, s1])
    let version : Version := ⟨major.toNat, minor.toNat⟩
    if version.major < 1 ∨ 3 < version.major then throw (.version version)
    let indexed := Bytes.toNat [i0, i1]
    let header ←
      if version.atLeast 2 0 then
        match rest with
        | r0 :: r1 :: _ => pure ⟨version, indexed, Bytes.toNat [r0, r1], 8⟩
        | _ => throw .headerCut
      else
        pure ⟨version, indexed, 0, 6⟩
    if maxFrames < max header.indexed header.rgba then
      throw (.frameCount header.indexed header.rgba)
    return header
  | _ => throw .tooSmall

/-- What reading a list of frames gives: the frames, the octets behind them, and the number of the
frame whose dimensions were missing, if that ended the list. -/
structure FrameList where
  frames : List SpriteFrame
  rest : Bytes
  missing : Option Nat

/-- Put a frame in front of a list. -/
def FrameList.cons (frame : SpriteFrame) (list : FrameList) : FrameList :=
  { list with frames := frame :: list.frames }

/-- The body of a frame in front of `rest` and the octets behind it. A shortened body has its
size in front; where even that is cut, the frame is the last one. -/
def readBody (kind : FrameKind) (shortened : Bool) (pixels : Nat) (rest : Bytes) :
    Option (Bytes × Bytes) :=
  if shortened then
    match rest with
    | s0 :: s1 :: rest =>
      let size := Bytes.toNat [s0, s1]
      some (RunLength.decompress (rest.take size) pixels, rest.drop size)
    | _ => none
  else
    let size := pixels * kind.pixelSize
    some (rest.take size, rest.drop size)

/-- Read `count` frames, the first of which has the number `index`. -/
def readFrames (kind : FrameKind) (shortened : Bool) : Nat → Nat → Bytes → FrameList
  | 0, _, rest => ⟨[], rest, none⟩
  | count + 1, index, w0 :: w1 :: h0 :: h1 :: rest =>
    let width := Bytes.toNat [w0, w1]
    let height := Bytes.toNat [h0, h1]
    if width = 0 ∨ height = 0 then
      (readFrames kind shortened count (index + 1) rest).cons ⟨width, height, kind, []⟩
    else
      match readBody kind shortened (width * height) rest with
      | some (data, rest) =>
        (readFrames kind shortened count (index + 1) rest).cons ⟨width, height, kind, data⟩
      | none => ⟨[⟨width, height, kind, []⟩], rest, none⟩
  | _ + 1, index, rest => ⟨[], rest, some index⟩

/-- The warning about a list of frames that ended early. -/
def FrameList.warnings (kind : FrameKind) (list : FrameList) : List Warning :=
  match list.missing with
  | some index => [.ranOut kind index]
  | none => []

/-- Where the octets behind a header are cut into frames and palette. -/
def splitPalette (header : Header) (body : Bytes) : Bytes × Palette :=
  let size := body.length
  if header.indexed ≠ 0 ∧ Palette.size ≤ size then
    (body.take (size - Palette.size),
      .ofTable (body.drop (size - Palette.size)) Palette.opaqueBut0)
  else
    (body, Palette.grey)

/-- The warnings about a sprite file, and the sprite. -/
def decode (bs : Bytes) : List Warning × Except Fault Sprite :=
  match decodeHeader bs with
  | .error fault => ([], .error fault)
  | .ok header =>
    let (frames, palette) := splitPalette header (bs.drop header.size)
    let indexed :=
      readFrames .indexed (header.version.atLeast 2 1) header.indexed 0 frames
    let rgba := readFrames .rgba false header.rgba 0 indexed.rest
    let warnings := indexed.warnings .indexed ++ rgba.warnings .rgba
    if indexed.frames.isEmpty && rgba.frames.isEmpty then
      (warnings, .error .noFrames)
    else
      (warnings, .ok ⟨header.version, indexed.frames, rgba.frames, palette⟩)

/-- The frames of both lists. -/
def frames (s : Sprite) : List SpriteFrame :=
  s.indexed ++ s.rgba

/-- The frame of a number. -/
def frame? (s : Sprite) (index : Int) : Option SpriteFrame :=
  if 0 ≤ index then s.frames[index.toNat]? else none

/-- The image of a frame that can be drawn; data missing from a cut frame counts as zeros. Before
version 2.0 the channels of a full colour are stored in the opposite order. -/
def draw (s : Sprite) (f : SpriteFrame) : Image :=
  let data := f.data.toArray
  match f.kind with
  | .indexed =>
    Image.ofFn f.width f.height fun x y => s.palette.color (data.getD (y * f.width + x) 0)
  | .rgba =>
    Image.ofFn f.width f.height fun x y =>
      let start := 4 * ((f.height - 1 - y) * f.width + x)
      let channel (i : Nat) : UInt8 := data.getD (start + i) 0
      if s.version.atLeast 2 0 then ⟨channel 1, channel 2, channel 3, channel 0⟩
      else ⟨channel 3, channel 2, channel 1, channel 0⟩

/-- The image of a frame, unless it is empty or too large, which is worth a warning. -/
def image? (s : Sprite) (f : SpriteFrame) : List Warning × Option Image :=
  if f.isEmpty then ([], none)
  else if maxDrawn < f.width ∨ maxDrawn < f.height then ([.tooLarge f.width f.height], none)
  else ([], some (s.draw f))

/-- The image of the frame of a number, if there is such a frame and it can be drawn. -/
def frameImage? (s : Sprite) (index : Int) : List Warning × Option Image :=
  match s.frame? index with
  | some f => s.image? f
  | none => ([], none)

end Sprite

end ArchiveExport
