import ArchiveExport.Resource.Reader
import ArchiveExport.Resource.Version

/-!
# World resources

A world resource names the files of a map and stores its water, its light, its bounds and the
number of its objects. Which fields there are depends on the version: a build number of one octet
(2.2 to 2.4) or of four octets and a flag (2.5 and later), an altitude file (1.4), water (1.3 to
2.5; type and waves from 1.8, animation speed from 1.9), light (1.5; shadow from 1.7) and bounds
(1.6). Fields that a version lacks have standard values.
-/

namespace ArchiveExport

/-- The water of a map. -/
structure Water where
  level : Binary64
  type : Int := 0
  waveHeight : Binary64 := .ofInt 1
  waveSpeed : Binary64 := .ofInt 2
  wavePitch : Binary64 := .ofInt 50
  animationSpeed : Int := 3

/-- The light of a map. -/
structure Light where
  longitude : Int := 45
  latitude : Int := 45
  diffuse : List Binary64 := [.ofInt 1, .ofInt 1, .ofInt 1]
  ambient : List Binary64 :=
    [.ofQuotient false 3 10, .ofQuotient false 3 10, .ofQuotient false 3 10]
  shadowOpacity : Binary64 := .ofQuotient false 1 2

/-- A decoded world resource. -/
structure World where
  version : Version
  buildNumber : Nat
  iniFile : String
  groundFile : String
  altitudeFile : String
  sourceFile : String
  water : Option Water
  light : Light
  bounds : List Int
  objects : Int

namespace World

/-- Why octets are no world resource. -/
inductive Fault where
  | signature
  | truncated (fault : Reader.Fault)
  deriving DecidableEq

/-- The fault in words. -/
def Fault.message : Fault → String
  | .signature => "invalid RSW signature"
  | .truncated fault => s!"truncated RSW header: {fault.message}"

/-- The number of octets of a file name. -/
def nameSize : Nat := 40

/-- The bounds of a version that stores none. -/
def standardBounds : List Int := [-500, 500, -500, 500]

/-- Read a real number at full width. -/
def readReal : Reading Binary64 := do
  return (← Reading.record Layout.float32).toBinary64

/-- Read three real numbers at full width. -/
def readReals : Reading (List Binary64) := do
  let (a, b, c) ← Reading.record Layout.float32.triple
  return [a.toBinary64, b.toBinary64, c.toBinary64]

/-- Read the build number. -/
def readBuildNumber (version : Version) : Reading Nat := do
  if version.atLeast 2 5 then
    let number ← Reading.record Layout.uint32
    let _ ← Reading.record Layout.uint8
    return number.toNat
  if version.atLeast 2 2 then
    return (← Reading.record Layout.uint8).toNat
  return 0

/-- Read the water, if the version stores it here. -/
def readWater (version : Version) : Reading (Option Water) := do
  if !version.atLeast 1 3 || version.atLeast 2 6 then
    return none
  let mut water : Water := { level := ← readReal }
  if version.atLeast 1 8 then
    let (type, height, speed, pitch) ←
      Reading.record (Layout.int32.pair Layout.float32.triple)
    water := { water with
      type := type.toInt
      waveHeight := height.toBinary64
      waveSpeed := speed.toBinary64
      wavePitch := pitch.toBinary64 }
  if version.atLeast 1 9 then
    let speed ← Reading.record Layout.int32
    water := { water with animationSpeed := speed.toInt }
  return some water

/-- Read the light. -/
def readLight (version : Version) : Reading Light := do
  if !version.atLeast 1 5 then
    return {}
  let (longitude, latitude) ← Reading.record (Layout.int32.pair Layout.int32)
  let diffuse ← readReals
  let ambient ← readReals
  let light : Light :=
    { longitude := longitude.toInt, latitude := latitude.toInt, diffuse, ambient }
  if version.atLeast 1 7 then
    return { light with shadowOpacity := ← readReal }
  return light

/-- Read the bounds. -/
def readBounds (version : Version) : Reading (List Int) := do
  if !version.atLeast 1 6 then
    return standardBounds
  let (top, bottom, left, right) ← Reading.record Layout.int32.quad
  return [top.toInt, bottom.toInt, left.toInt, right.toInt]

/-- Read what follows the version. -/
def readFields (version : Version) : Reading World := do
  let buildNumber ← readBuildNumber version
  let iniFile ← Reading.name nameSize
  let groundFile ← Reading.name nameSize
  let altitudeFile ← if version.atLeast 1 4 then Reading.name nameSize else pure ""
  let sourceFile ← Reading.name nameSize
  let water ← readWater version
  let light ← readLight version
  let bounds ← readBounds version
  let objects ← Reading.record Layout.int32
  return {
    version, buildNumber, iniFile, groundFile, altitudeFile, sourceFile, water, light, bounds
    objects := objects.toInt }

/-- The world resource in a file. -/
def decode (bs : Bytes) : Except Fault World :=
  match bs with
  | 0x47 :: 0x52 :: 0x53 :: 0x57 :: major :: minor :: _ =>
    match readFields ⟨major.toNat, minor.toNat⟩ (Reader.ofBytes bs 6) with
    | .ok (world, _) => .ok world
    | .error fault => .error (.truncated fault)
  | _ => .error .signature

end World

end ArchiveExport
