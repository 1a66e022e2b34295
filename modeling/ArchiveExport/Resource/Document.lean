import ArchiveExport.Checksum.Md5
import ArchiveExport.Json.Value
import ArchiveExport.Resource.Format

/-!
# Documents of resources

The document of a resource is the tree of plain values that is written for it. Pixel data and a
sprite's palette appear in it as their size and MD5 digest.
-/

namespace ArchiveExport

/-- Octets as their size and digest. -/
def Bytes.document (bs : Bytes) : Json :=
  .object [("size", .nat bs.length), ("md5", .text (Checksum.Md5.hex bs))]

/-- A version as the array of its two numbers. -/
def Version.document (v : Version) : Json :=
  .array [.nat v.major, .nat v.minor]

/-- A colour as the array of its four channels. -/
def Color.document (c : Color) : Json :=
  .array (c.octets.map fun b => .nat b.toNat)

namespace SpriteFrame

/-- The document of a sprite frame. -/
def document (f : SpriteFrame) : Json :=
  .object [("width", .nat f.width), ("height", .nat f.height), ("kind", .text f.kind.text),
    ("data", f.data.document)]

end SpriteFrame

/-- The document of a palette. -/
def Palette.document (p : Palette) : Json :=
  .object [("colors", .arrayOf Color.document p.colors.toList)]

/-- The document of a sprite. -/
def Sprite.document (s : Sprite) : Json :=
  .object [("version", s.version.document),
    ("indexed_frames", .arrayOf SpriteFrame.document s.indexed),
    ("rgba_frames", .arrayOf SpriteFrame.document s.rgba),
    ("palette", s.palette.octets.document)]

/-- The document of a layer. -/
def Layer.document (l : Layer) : Json :=
  let (red, green, blue, alpha) := l.color
  .object [("x", .integer l.x.toInt), ("y", .integer l.y.toInt),
    ("sprite_index", .integer l.spriteIndex.toInt), ("mirror", .bool l.mirror),
    ("scale_x", .real l.scaleX.toBinary64), ("scale_y", .real l.scaleY.toBinary64),
    ("rotation", .integer l.rotation.toInt), ("sprite_type", .integer l.spriteType.toInt),
    ("width", .integer l.width.toInt), ("height", .integer l.height.toInt),
    ("color", .arrayOf (fun b : UInt8 => .nat b.toNat) [red, green, blue, alpha])]

/-- The document of an anchor. -/
def Anchor.document (a : Anchor) : Json :=
  .object [("x", .integer a.x.toInt), ("y", .integer a.y.toInt), ("attr", .integer a.attr.toInt)]

/-- The document of an animation frame with its delay. -/
def AnimationFrame.document (f : AnimationFrame) (delay : Binary64) : Json :=
  .object [("layers", .arrayOf Layer.document f.layers), ("event_id", .integer f.event.toInt),
    ("anchors", .arrayOf Anchor.document f.anchors), ("delay", .real delay)]

/-- The document of an animation. -/
def Animation.document (a : Animation) : Json :=
  let action (timed : Action × Binary64) : Json :=
    .object [("frames", .arrayOf (fun f => f.document timed.2) timed.1)]
  .object [("version", a.version.document),
    ("actions", .arrayOf action a.timedActions),
    ("events", .arrayOf (fun name => .object [("name", .text name)]) a.events),
    ("frame_intervals", .arrayOf .real a.intervals)]

/-- The document of an altitude map. -/
def AltitudeMap.document (m : AltitudeMap) : Json :=
  .object [("version", .text m.version.text), ("width", .nat m.width), ("height", .nat m.height),
    ("min_altitude", .real m.lowest), ("max_altitude", .real m.highest),
    ("terrain", .object (m.terrain.entries.map fun e => (e.1, .nat e.2)))]

/-- The document of a map's water. -/
def Water.document (w : Water) : Json :=
  .object [("level", .real w.level), ("type", .integer w.type),
    ("wave_height", .real w.waveHeight), ("wave_speed", .real w.waveSpeed),
    ("wave_pitch", .real w.wavePitch), ("animation_speed", .integer w.animationSpeed)]

/-- The document of a map's light. -/
def Light.document (l : Light) : Json :=
  .object [("longitude", .integer l.longitude), ("latitude", .integer l.latitude),
    ("diffuse", .arrayOf .real l.diffuse), ("ambient", .arrayOf .real l.ambient),
    ("shadow_opacity", .real l.shadowOpacity)]

/-- The document of a world resource. -/
def World.document (w : World) : Json :=
  .object [("version", .text w.version.text), ("build_number", .nat w.buildNumber),
    ("ini_file", .text w.iniFile), ("gnd_file", .text w.groundFile),
    ("gat_file", .text w.altitudeFile), ("src_file", .text w.sourceFile),
    ("water", .orNull Water.document w.water), ("light", w.light.document),
    ("ground_bounds", .arrayOf .integer w.bounds), ("object_count", .integer w.objects)]

/-- The document of a chunk's header. -/
def LuaChunk.document (c : LuaChunk) : Json :=
  .object [("version", .text c.version), ("format", .nat c.format),
    ("little_endian", .bool c.littleEndian), ("int_size", .nat c.intSize),
    ("size_t_size", .nat c.sizeSize), ("instruction_size", .nat c.instructionSize),
    ("number_size", .nat c.numberSize), ("integral", .bool c.integral),
    ("source_name", .text c.sourceName), ("size", .nat c.size)]

/-- The document of a resource. -/
def Resource.document : Resource → Json
  | .palette p => p.document
  | .sprite s => s.document
  | .animation a => a.document
  | .altitude m => m.document
  | .world w => w.document
  | .luaChunk c => c.document
  | .bundle stem s a =>
    .object [("stem", .text stem), ("sprite", s.document), ("action", a.document)]

end ArchiveExport
