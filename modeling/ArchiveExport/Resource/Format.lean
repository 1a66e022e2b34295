import ArchiveExport.Resource.Altitude
import ArchiveExport.Resource.Animation
import ArchiveExport.Resource.LuaChunk
import ArchiveExport.Resource.Sprite
import ArchiveExport.Resource.World
import ArchiveExport.Text.Basic

/-!
# Resource formats

The formats that are decoded, the decoded resource of each, and the faults of entries that are no
resource of their format.
-/

namespace ArchiveExport

/-- A format of archive entries. A bundle is a sprite and an animation under one stem. -/
inductive Format where
  | palette
  | sprite
  | animation
  | altitude
  | world
  | luaChunk
  | bundle
  deriving DecidableEq

namespace Format

/-- The format's name in messages and lists. -/
def label : Format → String
  | .palette => "palette"
  | .sprite => "sprite"
  | .animation => "action"
  | .altitude => "altitude map"
  | .world => "world resource"
  | .luaChunk => "lua chunk"
  | .bundle => "sprite bundle"

/-- The format's short name, for most formats the extension of its files. -/
def name : Format → String
  | .palette => "pal"
  | .sprite => "spr"
  | .animation => "act"
  | .altitude => "gat"
  | .world => "rsw"
  | .luaChunk => "lub"
  | .bundle => "bundle"

/-- All formats. -/
def all : List Format :=
  [.palette, .sprite, .animation, .altitude, .world, .luaChunk, .bundle]

/-- The format of a short name. -/
def ofName? (name : String) : Option Format :=
  all.find? fun f => f.name = name

end Format

/-- A decoded resource. -/
inductive Resource where
  | palette (p : Palette)
  | sprite (s : Sprite)
  | animation (a : Animation)
  | altitude (m : AltitudeMap)
  | world (w : World)
  | luaChunk (c : LuaChunk)
  | bundle (stem : String) (s : Sprite) (a : Animation)

namespace Resource

/-- Why an entry is no resource of a format. -/
inductive Fault where
  | palette (f : Palette.Fault)
  | sprite (f : Sprite.Fault)
  | animation (f : Animation.Fault)
  | altitude (f : AltitudeMap.Fault)
  | world (f : World.Fault)
  | luaChunk (f : LuaChunk.Fault)
  /-- A bundle was asked for in the octets of one entry. -/
  | bundleInOne
  /-- The companions of a stem that the archive lacks. -/
  | companions (keys : List String)
  /-- The sprite of a stem that the archive lacks. -/
  | frameCompanion (key : String)
  /-- The octets are no image, and why not. -/
  | noImage (reason : String)
  deriving DecidableEq

/-- The fault in words, behind the name of the format. -/
def Fault.message : Fault → String
  | .palette f => s!"{Format.palette.label}: {f.message}"
  | .sprite f => s!"{Format.sprite.label}: {f.message}"
  | .animation f => s!"{Format.animation.label}: {f.message}"
  | .altitude f => s!"{Format.altitude.label}: {f.message}"
  | .world f => s!"{Format.world.label}: {f.message}"
  | .luaChunk f => s!"{Format.luaChunk.label}: {f.message}"
  | .bundleInOne =>
    s!"{Format.bundle.label}: a sprite bundle is decoded from two entries, not one"
  | .companions keys =>
    s!"{Format.bundle.label}: missing companion entry: " ++ Text.join ", " keys
  | .frameCompanion key => s!"sprite bundle frames: missing companion entry: {key}"
  | .noImage reason => s!"image: {reason}"

/-- A fault at a key, which may be empty. -/
structure FaultAt where
  fault : Fault
  key : String
  deriving DecidableEq

/-- The fault behind its key. -/
def FaultAt.message (f : FaultAt) : String :=
  if f.key = "" then f.fault.message else s!"{f.key}: {f.fault.message}"

/-- Decode the octets of one entry, with the warnings on the way. -/
def decode (format : Format) (bs : Bytes) : List Sprite.Warning × Except Fault Resource :=
  match format with
  | .palette => ([], (Palette.decode bs).mapError .palette |>.map .palette)
  | .sprite =>
    let (warnings, result) := Sprite.decode bs
    (warnings, result.mapError .sprite |>.map .sprite)
  | .animation => ([], (Animation.decode bs).mapError .animation |>.map .animation)
  | .altitude => ([], (AltitudeMap.decode bs).mapError .altitude |>.map .altitude)
  | .world => ([], (World.decode bs).mapError .world |>.map .world)
  | .luaChunk => ([], (LuaChunk.decode bs).mapError .luaChunk |>.map .luaChunk)
  | .bundle => ([], .error .bundleInOne)

end Resource

end ArchiveExport
