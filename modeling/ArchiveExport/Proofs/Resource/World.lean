import ArchiveExport.Proofs.Number.Rounding
import ArchiveExport.Proofs.Resource.Reading
import ArchiveExport.Resource.World

/-!
# World resources as they are stored

How the header of a world resource is written down, version by version, and that it is read back
with anything behind it. A version alone says how many octets its header has, so that octets of
that version are decoded when there are as many.
-/

namespace ArchiveExport

open Reading

variable {version : Version} {bs : Bytes}

namespace World

/-- A whole number of 32 bits with a sign. -/
def IsInt32 (n : Int) : Prop :=
  -2 ^ 31 ≤ n ∧ n < 2 ^ 31

/-- A finite number of 32 bits. -/
def IsSingle (v : Binary64) : Prop :=
  ∃ x : Binary32, x.Stores v

/-- The octets of a whole number. -/
def intOctets (n : Int) : Bytes :=
  Layout.int32.encode (Int32.ofInt n)

/-- The octets of a real number. -/
def RealWritten (v : Binary64) (bs : Bytes) : Prop :=
  ∃ x : Binary32, x.Stores v ∧ bs = Layout.float32.encode x

/-- The octets of three real numbers. -/
def RealsWritten (vs : List Binary64) (bs : Bytes) : Prop :=
  ∃ (u v w : Binary64) (first second third : Bytes), vs = [u, v, w] ∧ RealWritten u first ∧
    RealWritten v second ∧ RealWritten w third ∧ bs = first ++ (second ++ third)

/-- Three finite numbers of 32 bits. -/
def AreSingles (vs : List Binary64) : Prop :=
  ∃ u v w, vs = [u, v, w] ∧ IsSingle u ∧ IsSingle v ∧ IsSingle w

/-- Read a whole number. -/
def readInt : Reading Int := do
  return (← Reading.record Layout.int32).toInt

theorem takes_readInt : Takes readInt 4 :=
  (Takes.record Layout.int32).bind_pure _

theorem takes_readReal : Takes readReal 4 :=
  (Takes.record Layout.float32).bind_pure _

theorem takes_readReals : Takes readReals 12 :=
  (Takes.record Layout.float32.triple).bind fun _ => .pure _

theorem toInt_ofInt {n : Int} (hn : IsInt32 n) : (Int32.ofInt n).toInt = n :=
  Int32.toInt_ofInt_of_le hn.1 hn.2

theorem reads_readInt {n : Int} (hn : IsInt32 n) : Reads readInt (intOctets n) n := by
  have hread := (Spells.record Layout.int32 (Int32.ofInt n)).reads.bind_pure Int32.toInt
  rwa [toInt_ofInt hn] at hread

theorem length_intOctets (n : Int) : (intOctets n).length = 4 :=
  Layout.length_encode _ _

theorem RealWritten.length_eq {v : Binary64} (h : RealWritten v bs) : bs.length = 4 := by
  obtain ⟨x, -, rfl⟩ := h
  exact Layout.length_encode _ _

theorem reads_readReal {v : Binary64} (h : RealWritten v bs) : Reads readReal bs v := by
  obtain ⟨x, hx, rfl⟩ := h
  have hread := (Spells.record Layout.float32 x).reads.bind_pure Binary32.toBinary64
  rwa [hx.toBinary64_eq] at hread

theorem RealsWritten.length_eq {vs : List Binary64} (h : RealsWritten vs bs) :
    bs.length = 12 := by
  obtain ⟨u, v, w, first, second, third, -, hu, hv, hw, rfl⟩ := h
  rw [List.length_append, List.length_append, hu.length_eq, hv.length_eq, hw.length_eq]

theorem reads_readReals {vs : List Binary64} (h : RealsWritten vs bs) : Reads readReals bs vs := by
  obtain ⟨_, _, _, _, _, _, rfl, ⟨x, hx, rfl⟩, ⟨y, hy, rfl⟩, ⟨z, hz, rfl⟩, rfl⟩ := h
  have hread := (Spells.record Layout.float32.triple (x, y, z)).reads.bind_pure
    fun p => [p.1.toBinary64, p.2.1.toBinary64, p.2.2.toBinary64]
  rwa [hx.toBinary64_eq, hy.toBinary64_eq, hz.toBinary64_eq] at hread

theorem IsSingle.exists_written {v : Binary64} (h : IsSingle v) : ∃ bs, RealWritten v bs := by
  obtain ⟨x, hx⟩ := h
  exact ⟨_, x, hx, rfl⟩

theorem AreSingles.exists_written {vs : List Binary64} (h : AreSingles vs) :
    ∃ bs, RealsWritten vs bs := by
  obtain ⟨u, v, w, rfl, hu, hv, hw⟩ := h
  obtain ⟨first, hfirst⟩ := hu.exists_written
  obtain ⟨second, hsecond⟩ := hv.exists_written
  obtain ⟨third, hthird⟩ := hw.exists_written
  exact ⟨_, u, v, w, first, second, third, rfl, hfirst, hsecond, hthird, rfl⟩

/-! ### The build number -/

/-- The build numbers of a version: one octet from 2.2, four octets from 2.5. -/
def BuildFits (version : Version) (n : Nat) : Prop :=
  if version.atLeast 2 5 then n < 2 ^ 32 else if version.atLeast 2 2 then n < 2 ^ 8 else n = 0

/-- The octets of a build number. The flag behind one of four octets may be anything. -/
def BuildWritten (version : Version) (n : Nat) (bs : Bytes) : Prop :=
  if version.atLeast 2 5 then
    ∃ flag : UInt8, bs = Layout.uint32.encode (UInt32.ofNat n) ++ Layout.uint8.encode flag
  else if version.atLeast 2 2 then bs = Layout.uint8.encode (UInt8.ofNat n)
  else bs = []

/-- How many octets a build number has. -/
def buildSize (version : Version) : Nat :=
  if version.atLeast 2 5 then 5 else if version.atLeast 2 2 then 1 else 0

theorem exists_buildWritten (version : Version) (n : Nat) : ∃ bs, BuildWritten version n bs := by
  unfold BuildWritten
  split_ifs
  · exact ⟨_, 0, rfl⟩
  · exact ⟨_, rfl⟩
  · exact ⟨_, rfl⟩

theorem BuildWritten.length_eq {n : Nat} (h : BuildWritten version n bs) :
    bs.length = buildSize version := by
  unfold BuildWritten at h
  unfold buildSize
  split_ifs at h ⊢
  · obtain ⟨flag, rfl⟩ := h
    rw [List.length_append, Layout.length_encode, Layout.length_encode]
    rfl
  · rw [h, Layout.length_encode]
    rfl
  · rw [h, List.length_nil]

theorem reads_readBuildNumber {n : Nat} (hn : BuildFits version n)
    (hbs : BuildWritten version n bs) : Reads (readBuildNumber version) bs n := by
  unfold BuildFits at hn
  unfold BuildWritten at hbs
  unfold readBuildNumber
  split_ifs at hn hbs ⊢
  · obtain ⟨flag, rfl⟩ := hbs
    refine (Spells.record Layout.uint32 (UInt32.ofNat n)).reads.bind ?_
    have hnumber : (UInt32.ofNat n).toNat = n := UInt32.toNat_ofNat_of_lt' hn
    have hflag := (Spells.record Layout.uint8 flag).reads.bind_pure fun _ =>
      (UInt32.ofNat n).toNat
    rwa [hnumber] at hflag ⊢
  · rw [hbs]
    have hread := (Spells.record Layout.uint8 (UInt8.ofNat n)).reads.bind_pure UInt8.toNat
    rwa [UInt8.toNat_ofNat_of_lt' hn] at hread
  · rw [hbs, hn]
    exact .pure 0

theorem takes_readBuildNumber (version : Version) :
    Takes (readBuildNumber version) (buildSize version) := by
  unfold readBuildNumber buildSize
  split_ifs
  · exact (Takes.record Layout.uint32).bind fun _ => (Takes.record Layout.uint8).bind_pure _
  · exact (Takes.record Layout.uint8).bind_pure _
  · exact .pure 0

end World

/-! ### Water -/

namespace Water

open World

variable {w : Water}

/-- The fields that files of a version do not have are as they are read then. -/
structure Fits (version : Version) (w : Water) : Prop where
  level : IsSingle w.level
  waves : version.atLeast 1 8 = true →
    IsInt32 w.type ∧ IsSingle w.waveHeight ∧ IsSingle w.waveSpeed ∧ IsSingle w.wavePitch
  noWaves : version.atLeast 1 8 = false →
    (w.type, w.waveHeight, w.waveSpeed, w.wavePitch) = (0, .ofInt 1, .ofInt 2, .ofInt 50)
  speed : version.atLeast 1 9 = true → IsInt32 w.animationSpeed
  noSpeed : version.atLeast 1 9 = false → w.animationSpeed = 3

/-- The octets of the type and the waves. -/
def WavesWritten (w : Water) (bs : Bytes) : Prop :=
  ∃ waves : Bytes, RealsWritten [w.waveHeight, w.waveSpeed, w.wavePitch] waves ∧
    bs = intOctets w.type ++ waves

/-- The octets of the water of a version that has it. -/
def Written (version : Version) (w : Water) (bs : Bytes) : Prop :=
  ∃ level waves speed : Bytes, RealWritten w.level level ∧
    WrittenIf (version.atLeast 1 8) w.WavesWritten waves ∧
    WrittenIf (version.atLeast 1 9) (· = intOctets w.animationSpeed) speed ∧
    bs = level ++ (waves ++ speed)

/-- How many octets the water has. -/
def size (version : Version) : Nat :=
  4 + ((if version.atLeast 1 8 then 16 else 0) + (if version.atLeast 1 9 then 4 else 0))

theorem WavesWritten.length_eq (h : w.WavesWritten bs) : bs.length = 16 := by
  obtain ⟨waves, hwaves, rfl⟩ := h
  rw [List.length_append, length_intOctets, hwaves.length_eq]

theorem Written.length_eq (h : w.Written version bs) : bs.length = size version := by
  obtain ⟨level, waves, speed, hlevel, hwaves, hspeed, rfl⟩ := h
  rw [List.length_append, List.length_append, hlevel.length_eq,
    hwaves.length_eq fun _ => WavesWritten.length_eq,
    hspeed.length_eq fun _ h => h ▸ length_intOctets _]
  rfl

theorem exists_written (hw : w.Fits version) : ∃ bs, w.Written version bs := by
  obtain ⟨level, hlevel⟩ := hw.level.exists_written
  obtain ⟨waves, hwaves⟩ := exists_writtenIf (w := w.WavesWritten) fun hnew => by
    obtain ⟨-, hheight, hspeed, hpitch⟩ := hw.waves hnew
    obtain ⟨octets, hoctets⟩ :=
      AreSingles.exists_written ⟨_, _, _, rfl, hheight, hspeed, hpitch⟩
    exact ⟨_, octets, hoctets, rfl⟩
  obtain ⟨speed, hspeed⟩ := exists_writtenIf (c := version.atLeast 1 9)
    (w := (· = intOctets w.animationSpeed)) fun _ => ⟨_, rfl⟩
  exact ⟨_, level, waves, speed, hlevel, hwaves, hspeed, rfl⟩

/-- Read the type and the waves. -/
def readWaves : Reading (Int × Binary64 × Binary64 × Binary64) := do
  let (type, height, speed, pitch) ← Reading.record (Layout.int32.pair Layout.float32.triple)
  return (type.toInt, height.toBinary64, speed.toBinary64, pitch.toBinary64)

/-- Read the water of a version that stores it. -/
def read (version : Version) : Reading Water := do
  let level ← readReal
  let waves ← ifStored (version.atLeast 1 8) readWaves (0, .ofInt 1, .ofInt 2, .ofInt 50)
  let speed ← ifStored (version.atLeast 1 9) readInt 3
  return ⟨level, waves.1, waves.2.1, waves.2.2.1, waves.2.2.2, speed⟩

theorem reads_readWaves (hw : IsInt32 w.type) (hbs : w.WavesWritten bs) :
    Reads readWaves bs (w.type, w.waveHeight, w.waveSpeed, w.wavePitch) := by
  obtain ⟨_, ⟨_, _, _, _, _, _, heq, ⟨x, hx, rfl⟩, ⟨y, hy, rfl⟩, ⟨z, hz, rfl⟩, rfl⟩, rfl⟩ := hbs
  simp only [List.cons.injEq, and_true] at heq
  obtain ⟨rfl, rfl, rfl⟩ := heq
  have hread := (Spells.record (Layout.int32.pair Layout.float32.triple)
    (Int32.ofInt w.type, x, y, z)).reads.bind_pure
      fun p => (p.1.toInt, p.2.1.toBinary64, p.2.2.1.toBinary64, p.2.2.2.toBinary64)
  rwa [toInt_ofInt hw, hx.toBinary64_eq, hy.toBinary64_eq, hz.toBinary64_eq] at hread

theorem reads (hw : w.Fits version) (hbs : w.Written version bs) :
    Reads (read version) bs w := by
  obtain ⟨level, waves, speed, hlevel, hwaves, hspeed, rfl⟩ := hbs
  refine (reads_readReal hlevel).bind ?_
  refine (Reads.ifStored hwaves (fun hnew => reads_readWaves (hw.waves hnew).1) hw.noWaves).bind ?_
  exact (Reads.ifStored hspeed (fun hnew h => h ▸ reads_readInt (hw.speed hnew))
    hw.noSpeed).bind_pure _

theorem takes (version : Version) : Takes (read version) (size version) :=
  takes_readReal.bind fun _ =>
    (Takes.ifStored _ ((Takes.record _).bind fun _ => .pure _) _).bind fun _ =>
      (Takes.ifStored _ takes_readInt _).bind_pure _

end Water

/-! ### Light -/

namespace Light

open World

variable {l : Light}

/-- The fields that files of a version do not have are as they are read then. -/
structure Fits (version : Version) (l : Light) : Prop where
  longitude : IsInt32 l.longitude
  latitude : IsInt32 l.latitude
  diffuse : AreSingles l.diffuse
  ambient : AreSingles l.ambient
  shadow : version.atLeast 1 7 = true → IsSingle l.shadowOpacity
  noShadow : version.atLeast 1 7 = false → l.shadowOpacity = .ofQuotient false 1 2

/-- The octets of the light of a version that has it. -/
def Written (version : Version) (l : Light) (bs : Bytes) : Prop :=
  ∃ diffuse ambient shadow : Bytes, RealsWritten l.diffuse diffuse ∧
    RealsWritten l.ambient ambient ∧
    WrittenIf (version.atLeast 1 7) (RealWritten l.shadowOpacity) shadow ∧
    bs = (intOctets l.longitude ++ intOctets l.latitude) ++ (diffuse ++ (ambient ++ shadow))

/-- How many octets the light has. -/
def size (version : Version) : Nat :=
  8 + (12 + (12 + if version.atLeast 1 7 then 4 else 0))

theorem Written.length_eq (h : l.Written version bs) : bs.length = size version := by
  obtain ⟨diffuse, ambient, shadow, hdiffuse, hambient, hshadow, rfl⟩ := h
  simp only [List.length_append, length_intOctets, hdiffuse.length_eq, hambient.length_eq,
    hshadow.length_eq fun _ => RealWritten.length_eq]
  rfl

theorem exists_written (hl : l.Fits version) : ∃ bs, l.Written version bs := by
  obtain ⟨diffuse, hdiffuse⟩ := hl.diffuse.exists_written
  obtain ⟨ambient, hambient⟩ := hl.ambient.exists_written
  obtain ⟨shadow, hshadow⟩ := exists_writtenIf fun hnew => (hl.shadow hnew).exists_written
  exact ⟨_, diffuse, ambient, shadow, hdiffuse, hambient, hshadow, rfl⟩

/-- Read the light of a version that stores it. -/
def read (version : Version) : Reading Light := do
  let angles ← Reading.record (Layout.int32.pair Layout.int32)
  let diffuse ← readReals
  let ambient ← readReals
  let shadow ← ifStored (version.atLeast 1 7) readReal (.ofQuotient false 1 2)
  return ⟨angles.1.toInt, angles.2.toInt, diffuse, ambient, shadow⟩

theorem reads (hl : l.Fits version) (hbs : l.Written version bs) :
    Reads (read version) bs l := by
  obtain ⟨diffuse, ambient, shadow, hdiffuse, hambient, hshadow, rfl⟩ := hbs
  refine (Spells.record (Layout.int32.pair Layout.int32)
    (Int32.ofInt l.longitude, Int32.ofInt l.latitude)).reads.bind ?_
  rw [toInt_ofInt hl.longitude, toInt_ofInt hl.latitude]
  refine (reads_readReals hdiffuse).bind ?_
  refine (reads_readReals hambient).bind ?_
  exact (Reads.ifStored hshadow (fun _ => reads_readReal) hl.noShadow).bind_pure _

theorem takes (version : Version) : Takes (read version) (size version) :=
  (Takes.record _).bind fun _ => takes_readReals.bind fun _ => takes_readReals.bind fun _ =>
    (Takes.ifStored _ takes_readReal _).bind_pure _

end Light

namespace World

variable {w : World}

/-! ### Bounds -/

/-- Four whole numbers of 32 bits. -/
def BoundsFit (bounds : List Int) : Prop :=
  ∃ top bottom left right, bounds = [top, bottom, left, right] ∧
    IsInt32 top ∧ IsInt32 bottom ∧ IsInt32 left ∧ IsInt32 right

/-- The octets of the bounds. -/
def BoundsWritten (bounds : List Int) (bs : Bytes) : Prop :=
  bs = bounds.flatMap intOctets

/-- Read the bounds of a version that stores them. -/
def readStoredBounds : Reading (List Int) := do
  let sides ← Reading.record Layout.int32.quad
  return [sides.1.toInt, sides.2.1.toInt, sides.2.2.1.toInt, sides.2.2.2.toInt]

theorem BoundsWritten.length_eq {bounds : List Int} (hbounds : BoundsFit bounds)
    (h : BoundsWritten bounds bs) : bs.length = 16 := by
  obtain ⟨top, bottom, left, right, rfl, -⟩ := hbounds
  rw [h]
  simp [length_intOctets]

theorem reads_readStoredBounds {bounds : List Int} (hbounds : BoundsFit bounds)
    (hbs : BoundsWritten bounds bs) : Reads readStoredBounds bs bounds := by
  obtain ⟨top, bottom, left, right, rfl, htop, hbottom, hleft, hright⟩ := hbounds
  have hread := (Spells.record Layout.int32.quad (Int32.ofInt top, Int32.ofInt bottom,
    Int32.ofInt left, Int32.ofInt right)).reads.bind_pure
      fun p => [p.1.toInt, p.2.1.toInt, p.2.2.1.toInt, p.2.2.2.toInt]
  rw [toInt_ofInt htop, toInt_ofInt hbottom, toInt_ofInt hleft, toInt_ofInt hright] at hread
  have hoctets : bs = Layout.int32.quad.encode (Int32.ofInt top, Int32.ofInt bottom,
      Int32.ofInt left, Int32.ofInt right) := by
    rw [hbs]
    simp [intOctets, Layout.quad, Layout.triple, Layout.pair]
  rwa [hoctets]

/-! ### Headers -/

/-- Whether a version stores the water here. -/
def storesWater (version : Version) : Bool :=
  version.atLeast 1 3 && !version.atLeast 2 6

/-- The octets of the water that is there. -/
def WaterWritten (version : Version) (water : Option Water) (bs : Bytes) : Prop :=
  ∃ stored, water = some stored ∧ stored.Written version bs

/-- A text without NUL that fits a name field. -/
def NameFits (name : String) : Prop :=
  0 ∉ Bytes.ofString name ∧ (Bytes.ofString name).length ≤ nameSize

/-- What the header of a version can hold. Fields that the version does not have are as they are
read then. -/
structure Fits (w : World) : Prop where
  major : w.version.major < 256
  minor : w.version.minor < 256
  build : BuildFits w.version w.buildNumber
  ini : NameFits w.iniFile
  ground : NameFits w.groundFile
  altitude : w.version.atLeast 1 4 = true → NameFits w.altitudeFile
  noAltitude : w.version.atLeast 1 4 = false → w.altitudeFile = ""
  source : NameFits w.sourceFile
  water : storesWater w.version = true → ∃ water, w.water = some water ∧ water.Fits w.version
  noWater : storesWater w.version = false → w.water = none
  light : w.version.atLeast 1 5 = true → w.light.Fits w.version
  noLight : w.version.atLeast 1 5 = false → w.light = {}
  bounds : w.version.atLeast 1 6 = true → BoundsFit w.bounds
  noBounds : w.version.atLeast 1 6 = false → w.bounds = standardBounds
  objects : IsInt32 w.objects

/-- The octets of what follows the version. -/
def FieldsWritten (w : World) (bs : Bytes) : Prop :=
  ∃ build ini ground altitude source water light bounds : Bytes,
    BuildWritten w.version w.buildNumber build ∧
    NameWritten nameSize w.iniFile ini ∧
    NameWritten nameSize w.groundFile ground ∧
    WrittenIf (w.version.atLeast 1 4) (NameWritten nameSize w.altitudeFile) altitude ∧
    NameWritten nameSize w.sourceFile source ∧
    WrittenIf (storesWater w.version) (WaterWritten w.version w.water) water ∧
    WrittenIf (w.version.atLeast 1 5) (w.light.Written w.version) light ∧
    WrittenIf (w.version.atLeast 1 6) (BoundsWritten w.bounds) bounds ∧
    bs = build ++ (ini ++ (ground ++ (altitude ++ (source ++ (water ++ (light ++ (bounds ++
      intOctets w.objects)))))))

/-- The octets in front of the fields: the signature and the version. -/
def prefixOctets (version : Version) : Bytes :=
  [0x47, 0x52, 0x53, 0x57, UInt8.ofNat version.major, UInt8.ofNat version.minor]

/-- The octets of a header. -/
def Written (w : World) (bs : Bytes) : Prop :=
  ∃ fields, w.FieldsWritten fields ∧ bs = prefixOctets w.version ++ fields

/-- How many octets follow the version. -/
def fieldsSize (version : Version) : Nat :=
  buildSize version + (nameSize + (nameSize + ((if version.atLeast 1 4 then nameSize else 0) +
    (nameSize + ((if storesWater version then Water.size version else 0) +
      ((if version.atLeast 1 5 then Light.size version else 0) +
        ((if version.atLeast 1 6 then 16 else 0) + 4)))))))

/-- How many octets the header of a version has. -/
def headerSize (version : Version) : Nat :=
  6 + fieldsSize version

theorem exists_written (hw : w.Fits) : ∃ bs, w.Written bs := by
  obtain ⟨build, hbuild⟩ := exists_buildWritten w.version w.buildNumber
  obtain ⟨ini, hini⟩ := exists_nameWritten hw.ini.2
  obtain ⟨ground, hground⟩ := exists_nameWritten hw.ground.2
  obtain ⟨altitude, haltitude⟩ := exists_writtenIf fun hnew =>
    exists_nameWritten (hw.altitude hnew).2
  obtain ⟨source, hsource⟩ := exists_nameWritten hw.source.2
  obtain ⟨water, hwater⟩ := exists_writtenIf (w := WaterWritten w.version w.water)
    fun hstored => by
      obtain ⟨water, hsome, hfits⟩ := hw.water hstored
      obtain ⟨octets, hoctets⟩ := Water.exists_written hfits
      exact ⟨octets, water, hsome, hoctets⟩
  obtain ⟨light, hlight⟩ := exists_writtenIf fun hnew => Light.exists_written (hw.light hnew)
  obtain ⟨bounds, hbounds⟩ := exists_writtenIf (c := w.version.atLeast 1 6)
    (w := BoundsWritten w.bounds) fun _ => ⟨_, rfl⟩
  exact ⟨_, _, ⟨build, ini, ground, altitude, source, water, light, bounds, hbuild, hini, hground,
    haltitude, hsource, hwater, hlight, hbounds, rfl⟩, rfl⟩

theorem FieldsWritten.length_eq (hw : w.Fits) (h : w.FieldsWritten bs) :
    bs.length = fieldsSize w.version := by
  obtain ⟨build, ini, ground, altitude, source, water, light, bounds, hbuild, hini, hground,
    haltitude, hsource, hwater, hlight, hbounds, rfl⟩ := h
  have hname {name : String} {octets : Bytes} (h : NameWritten nameSize name octets) :
      octets.length = nameSize := h.choose_spec.2.2
  have hwaterSize : WaterWritten w.version w.water water →
      water.length = Water.size w.version := by
    rintro ⟨stored, -, hstored⟩
    exact hstored.length_eq
  simp only [List.length_append, hbuild.length_eq, hname hini, hname hground, hname hsource,
    haltitude.length_eq fun _ => hname, hwater.length_eq fun _ => hwaterSize,
    hlight.length_eq fun _ => Light.Written.length_eq,
    hbounds.length_eq fun hnew => BoundsWritten.length_eq (hw.bounds hnew), length_intOctets]
  rfl

theorem Written.length_eq (hw : w.Fits) (h : w.Written bs) :
    bs.length = headerSize w.version := by
  obtain ⟨fields, hfields, rfl⟩ := h
  rw [List.length_append, hfields.length_eq hw]
  rfl

/-! ### Reading headers -/

theorem readWater_eq (version : Version) :
    readWater version =
      ifStored (storesWater version) (Water.read version >>= fun w => pure (some w)) none := by
  unfold readWater Water.read Water.readWaves readInt ifStored storesWater
  cases version.atLeast 1 3 <;> cases version.atLeast 2 6 <;> cases version.atLeast 1 8 <;>
    cases version.atLeast 1 9 <;> simp

theorem readLight_eq (version : Version) :
    readLight version = ifStored (version.atLeast 1 5) (Light.read version) {} := by
  unfold readLight Light.read ifStored
  cases version.atLeast 1 5 <;> cases version.atLeast 1 7 <;> simp

theorem readBounds_eq (version : Version) :
    readBounds version = ifStored (version.atLeast 1 6) readStoredBounds standardBounds := by
  unfold readBounds readStoredBounds ifStored
  cases version.atLeast 1 6 <;> simp

theorem readFields_eq (version : Version) :
    readFields version = do
      let buildNumber ← readBuildNumber version
      let iniFile ← Reading.name nameSize
      let groundFile ← Reading.name nameSize
      let altitudeFile ← ifStored (version.atLeast 1 4) (Reading.name nameSize) ""
      let sourceFile ← Reading.name nameSize
      let water ← readWater version
      let light ← readLight version
      let bounds ← readBounds version
      let objects ← readInt
      return ⟨version, buildNumber, iniFile, groundFile, altitudeFile, sourceFile, water, light,
        bounds, objects⟩ := by
  unfold readFields readInt ifStored
  cases version.atLeast 1 4 <;> simp

theorem reads_readFields (hw : w.Fits) (hbs : w.FieldsWritten bs) :
    Reads (readFields w.version) bs w := by
  obtain ⟨build, ini, ground, altitude, source, water, light, bounds, hbuild, hini, hground,
    haltitude, hsource, hwater, hlight, hbounds, rfl⟩ := hbs
  have hstoredWater (hstored : storesWater w.version = true)
      (hwritten : WaterWritten w.version w.water water) :
      Reads (Water.read w.version >>= fun w => pure (some w)) water w.water := by
    obtain ⟨stored, hsome, hfits⟩ := hw.water hstored
    obtain ⟨other, hother, hwritten⟩ := hwritten
    obtain rfl : stored = other := Option.some.inj (hsome.symm.trans hother)
    rw [hsome]
    exact (Water.reads hfits hwritten).bind_pure _
  rw [readFields_eq, readWater_eq, readLight_eq, readBounds_eq]
  refine (reads_readBuildNumber hw.build hbuild).bind ?_
  refine (Reads.name hw.ini.1 hini).bind ?_
  refine (Reads.name hw.ground.1 hground).bind ?_
  refine (Reads.ifStored haltitude (fun hnew => Reads.name (hw.altitude hnew).1)
    hw.noAltitude).bind ?_
  refine (Reads.name hw.source.1 hsource).bind ?_
  refine (Reads.ifStored hwater hstoredWater hw.noWater).bind ?_
  refine (Reads.ifStored hlight (fun hnew => Light.reads (hw.light hnew)) hw.noLight).bind ?_
  refine (Reads.ifStored hbounds (fun hnew => reads_readStoredBounds (hw.bounds hnew))
    hw.noBounds).bind ?_
  exact (reads_readInt hw.objects).bind_pure _

theorem takes_readFields (version : Version) :
    Takes (readFields version) (fieldsSize version) := by
  rw [readFields_eq, readWater_eq, readLight_eq, readBounds_eq]
  refine (takes_readBuildNumber version).bind fun _ => ?_
  refine (Takes.name nameSize).bind fun _ => (Takes.name nameSize).bind fun _ => ?_
  refine (Takes.ifStored _ (Takes.name nameSize) _).bind fun _ => ?_
  refine (Takes.name nameSize).bind fun _ => ?_
  refine (Takes.ifStored _ ((Water.takes version).bind_pure _) _).bind fun _ => ?_
  refine (Takes.ifStored _ (Light.takes version) _).bind fun _ => ?_
  refine (Takes.ifStored _ ((Takes.record Layout.int32.quad).bind_pure _) _).bind fun _ => ?_
  exact takes_readInt.bind_pure _

theorem decode_signed (major minor : UInt8) (rest : Bytes) :
    decode (0x47 :: 0x52 :: 0x53 :: 0x57 :: major :: minor :: rest) =
      match readFields ⟨major.toNat, minor.toNat⟩
          (.behind [0x47, 0x52, 0x53, 0x57, major, minor] rest) with
      | .ok (world, _) => .ok world
      | .error fault => .error (.truncated fault) :=
  rfl

theorem decode_eq (hw : w.Fits) (hbs : w.Written bs) (rest : Bytes) :
    decode (bs ++ rest) = .ok w := by
  obtain ⟨fields, hfields, rfl⟩ := hbs
  have hversion : w.version = ⟨(UInt8.ofNat w.version.major).toNat,
      (UInt8.ofNat w.version.minor).toNat⟩ := by
    rw [UInt8.toNat_ofNat_of_lt' hw.major, UInt8.toNat_ofNat_of_lt' hw.minor]
  have hread := reads_readFields hw hfields (prefixOctets w.version) rest
  have hbytes : prefixOctets w.version ++ fields ++ rest =
      0x47 :: 0x52 :: 0x53 :: 0x57 :: UInt8.ofNat w.version.major ::
        UInt8.ofNat w.version.minor :: (fields ++ rest) := rfl
  rw [hbytes, decode_signed, ← hversion]
  rw [prefixOctets] at hread
  rw [hread]

theorem exists_decode_of_le {major minor : UInt8} {rest : Bytes}
    (h : fieldsSize ⟨major.toNat, minor.toNat⟩ ≤ rest.length) :
    ∃ w, decode (0x47 :: 0x52 :: 0x53 :: 0x57 :: major :: minor :: rest) = .ok w := by
  obtain ⟨w, hw⟩ := (takes_readFields ⟨major.toNat, minor.toNat⟩).enough
    (rest.take (fieldsSize ⟨major.toNat, minor.toNat⟩)) (by rw [List.length_take]; omega)
  have hread := hw [0x47, 0x52, 0x53, 0x57, major, minor]
    (rest.drop (fieldsSize ⟨major.toNat, minor.toNat⟩))
  rw [List.take_append_drop] at hread
  exact ⟨w, by rw [decode_signed, hread]⟩

theorem exists_fault_of_lt {major minor : UInt8} {rest : Bytes}
    (h : rest.length < fieldsSize ⟨major.toNat, minor.toNat⟩) :
    ∃ fault, decode (0x47 :: 0x52 :: 0x53 :: 0x57 :: major :: minor :: rest) =
      .error (.truncated fault) := by
  obtain ⟨fault, hfault⟩ := (takes_readFields ⟨major.toNat, minor.toNat⟩).short
    [0x47, 0x52, 0x53, 0x57, major, minor] rest h
  exact ⟨fault, by rw [decode_signed, hfault]⟩

/-- The header of each version can be written down, it has the size of its version, and it is read
back with anything behind it. Octets with the signature and a version are decoded exactly when
they are as many as the header of that version has; fewer of them are refused. -/
theorem decode_iff_headerSize :
    (∀ w : World, w.Fits → (∃ bs, w.Written bs) ∧
      ∀ bs, w.Written bs → bs.length = headerSize w.version ∧
        ∀ rest, decode (bs ++ rest) = .ok w) ∧
    ∀ (major minor : UInt8) (bs : Bytes), [0x47, 0x52, 0x53, 0x57, major, minor] <+: bs →
      if headerSize ⟨major.toNat, minor.toNat⟩ ≤ bs.length then
        ∃ w, decode bs = .ok w
      else
        ∃ fault, decode bs = .error (.truncated fault) := by
  refine ⟨fun w hw => ⟨exists_written hw, fun bs hbs =>
    ⟨hbs.length_eq hw, decode_eq hw hbs⟩⟩, ?_⟩
  rintro major minor _ ⟨rest, rfl⟩
  have hlength : ([0x47, 0x52, 0x53, 0x57, major, minor] ++ rest).length = 6 + rest.length := by
    rw [List.length_append]
    rfl
  rw [hlength, headerSize]
  split
  next h => exact @exists_decode_of_le major minor rest (by omega)
  next h => exact @exists_fault_of_lt major minor rest (by omega)

theorem isSingle_toBinary64 (x : Binary32) (h : x.storedExponent ≠ 255) :
    IsSingle x.toBinary64 :=
  ⟨x, Binary32.stores_toBinary64 h⟩

/-- A map with a level of water below zero and a light that is not white. -/
def prontera : World where
  version := ⟨2, 1⟩
  buildNumber := 0
  iniFile := ""
  groundFile := "prontera.gnd"
  altitudeFile := "prontera.gat"
  sourceFile := ""
  water := some {
    level := (⟨0xC0200000⟩ : Binary32).toBinary64
    type := 1
    waveHeight := Binary32.one.toBinary64
    waveSpeed := (⟨0x40000000⟩ : Binary32).toBinary64
    wavePitch := (⟨0x42480000⟩ : Binary32).toBinary64
    animationSpeed := 3 }
  light := {
    longitude := 45
    latitude := 30
    diffuse := [Binary32.one.toBinary64, (⟨0x3F666666⟩ : Binary32).toBinary64,
      (⟨0x3F4CCCCD⟩ : Binary32).toBinary64]
    ambient := List.replicate 3 (⟨0x3E99999A⟩ : Binary32).toBinary64
    shadowOpacity := (⟨0x3F000000⟩ : Binary32).toBinary64 }
  bounds := [-100, 100, -200, 200]
  objects := 7

theorem prontera_fits : prontera.Fits := by
  have hwater : Water.Fits ⟨2, 1⟩ (prontera.water.get rfl) :=
    ⟨isSingle_toBinary64 ⟨0xC0200000⟩ (by decide),
      fun _ => ⟨⟨by decide, by decide⟩, isSingle_toBinary64 .one (by decide),
        isSingle_toBinary64 ⟨0x40000000⟩ (by decide), isSingle_toBinary64 ⟨0x42480000⟩ (by decide)⟩,
      by decide, fun _ => ⟨by decide, by decide⟩, by decide⟩
  have hambient := isSingle_toBinary64 ⟨0x3E99999A⟩ (by decide)
  have hlight : Light.Fits ⟨2, 1⟩ prontera.light :=
    ⟨⟨by decide, by decide⟩, ⟨by decide, by decide⟩,
      ⟨_, _, _, rfl, isSingle_toBinary64 .one (by decide),
        isSingle_toBinary64 ⟨0x3F666666⟩ (by decide), isSingle_toBinary64 ⟨0x3F4CCCCD⟩ (by decide)⟩,
      ⟨_, _, _, rfl, hambient, hambient, hambient⟩,
      fun _ => isSingle_toBinary64 ⟨0x3F000000⟩ (by decide), fun h => absurd h (by decide)⟩
  have hbounds : BoundsFit prontera.bounds :=
    ⟨_, _, _, _, rfl, ⟨by decide, by decide⟩, ⟨by decide, by decide⟩, ⟨by decide, by decide⟩,
      ⟨by decide, by decide⟩⟩
  exact {
    major := by decide
    minor := by decide
    build := rfl
    ini := ⟨by decide, by decide⟩
    ground := ⟨by decide, by decide⟩
    altitude := fun _ => ⟨by decide, by decide⟩
    noAltitude := fun h => absurd h (by decide)
    source := ⟨by decide, by decide⟩
    water := fun _ => ⟨_, rfl, hwater⟩
    noWater := fun h => absurd h (by decide)
    light := fun _ => hlight
    noLight := fun h => absurd h (by decide)
    bounds := fun _ => hbounds
    noBounds := fun h => absurd h (by decide)
    objects := ⟨by decide, by decide⟩ }

theorem decode_iff_headerSize_of_prontera :
    (∃ bs, prontera.Written bs ∧ bs.length = 246 ∧ decode (bs ++ [0]) = .ok prontera) ∧
      ∃ fault, decode [0x47, 0x52, 0x53, 0x57, 2, 1] = .error (.truncated fault) := by
  obtain ⟨hread, hsize⟩ := decode_iff_headerSize
  obtain ⟨⟨bs, hbs⟩, hdecode⟩ := hread prontera prontera_fits
  refine ⟨⟨bs, hbs, (hdecode bs hbs).1, (hdecode bs hbs).2 [0]⟩, ?_⟩
  exact hsize 2 1 _ (List.prefix_refl _)

end World

end ArchiveExport
