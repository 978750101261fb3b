import Skycam.Follow.Mode
import Skycam.Geometry.Vec3
import Skycam.Json.Decode
import Skycam.Json.Reader
import Skycam.Json.Writer
import Skycam.Number.Float32

/-!
# Configuration

The numbers that shape a fleet of rigs: offsets and rates of the follow modes, fields of view, the
time for which a lost target is waited for and the sizes of render surfaces. A configuration is
read from a JSON text in which every field may be missing, and written as one with every field.
-/

namespace Skycam

/-- Offsets in the space of the target, and rates of the follow modes. -/
structure FollowTuning where
  /-- Where a rig stands in the modes smooth and strict, and when it binds to a target. -/
  followOffset : Vec3 Float32
  /-- Where it stands in the mode first. -/
  firstPersonOffset : Vec3 Float32
  /-- Where it stands in the mode bumper. -/
  bumperOffset : Vec3 Float32
  /-- Where it stands in the mode locked. -/
  lockedOffset : Vec3 Float32
  /-- How it is turned against the target in the mode locked, in Euler degrees. -/
  lockedTilt : Vec3 Float32
  /-- How far ahead of the target the point lies that smooth and strict look at. -/
  lookAheadDistance : Float32
  /-- The part of the way that smooth goes in a second. -/
  smoothFollowSpeed : Float32
  deriving DecidableEq, Repr

/-- Fields of view in degrees. -/
structure FovTuning where
  /-- Of a new pair of cameras. -/
  base : Float32
  /-- In the mode smooth. -/
  smooth : Float32
  /-- In the mode strict. -/
  strict : Float32
  /-- In the mode locked. -/
  locked : Float32
  /-- In the mode bumper. -/
  bumper : Float32
  /-- In the mode first. -/
  first : Float32
  /-- The smallest one that can be asked for. -/
  min : Float32
  /-- The largest one that can be asked for. -/
  max : Float32
  deriving DecidableEq, Repr

/-- How a lost target is waited for, in seconds. -/
structure RecoveryWindow where
  /-- The time from one look at the roster to the next. -/
  pollInterval : Float32
  /-- The time after which the rig gives up. -/
  timeout : Float32
  deriving DecidableEq, Repr

/-- Sizes of render surfaces in pixels. -/
structure SurfaceSizes where
  /-- The width of a new surface. -/
  defaultWidth : UInt32
  /-- The height of a new surface. -/
  defaultHeight : UInt32
  /-- The least width and height of a placement. -/
  minPresetSize : UInt32
  deriving DecidableEq, Repr

/-- The configuration of a fleet. -/
structure Config where
  /-- Offsets and rates. -/
  tuning : FollowTuning
  /-- Fields of view. -/
  fov : FovTuning
  /-- The wait for a lost target. -/
  recovery : RecoveryWindow
  /-- Sizes of surfaces. -/
  surface : SurfaceSizes
  /-- Whether a group of presets closes all open rigs first. -/
  clearOnPreset : Bool
  deriving DecidableEq, Repr

/-- The field of view of a mode. -/
def FovTuning.forMode (f : FovTuning) : FollowMode → Float32
  | .smooth => f.smooth
  | .strict => f.strict
  | .locked => f.locked
  | .bumper => f.bumper
  | .first => f.first

/-- A field of view cut to the range that can be asked for, unless the ends of the range are not in
order. A NaN stays. -/
def FovTuning.clamp? (f : FovTuning) (fov : Float32) : Option Float32 :=
  if f.min ≤ f.max then some (Scalar.clamp f.min f.max fov) else none

/-- The tuning of a new configuration. -/
def FollowTuning.standard : FollowTuning where
  followOffset := ⟨0.0, 2.0, -3.0⟩
  firstPersonOffset := ⟨0.0, 0.2, 2.2⟩
  bumperOffset := ⟨0.0, 0.5, 3.5⟩
  lockedOffset := ⟨0.0, 1.7, -3.0⟩
  lockedTilt := ⟨6.0, 0.0, 0.0⟩
  lookAheadDistance := 5.0
  smoothFollowSpeed := 5.0

/-- The fields of view of a new configuration. -/
def FovTuning.standard : FovTuning where
  base := 60.0
  smooth := 60.0
  strict := 60.0
  locked := 50.0
  bumper := 70.0
  first := 90.0
  min := 1.0
  max := 135.0

/-- The wait of a new configuration. -/
def RecoveryWindow.standard : RecoveryWindow := ⟨0.25, 3.0⟩

/-- The sizes of a new configuration. -/
def SurfaceSizes.standard : SurfaceSizes := ⟨320, 240, 100⟩

/-- A new configuration. -/
def Config.standard : Config where
  tuning := FollowTuning.standard
  fov := FovTuning.standard
  recovery := RecoveryWindow.standard
  surface := SurfaceSizes.standard
  clearOnPreset := true

namespace Vec3

open Json

/-- Reads a vector from an array of three numbers. -/
def ofJson? : Value → Option (Vec3 Float32)
  | .array [x, y, z] => do return ⟨← x.single?, ← y.single?, ← z.single?⟩
  | _ => none

/-- A vector as an array of three numbers. -/
def toJson (v : Vec3 Float32) : Value :=
  .array [.ofSingle v.x, .ofSingle v.y, .ofSingle v.z]

end Vec3

namespace FollowTuning

open Json

/-- The names of the fields in their order. -/
def fieldNames : List String :=
  ["follow_offset", "first_person_offset", "bumper_offset", "locked_offset",
    "locked_tilt_degrees", "look_ahead_distance", "smooth_follow_speed"]

/-- Reads a tuning; what is missing keeps its standard value. -/
def ofJson? (v : Value) : Option FollowTuning := do
  match ← v.fields? fieldNames with
  | [follow, first, bumper, locked, tilt, ahead, speed] =>
    return {
      followOffset := ← optional standard.followOffset Vec3.ofJson? follow
      firstPersonOffset := ← optional standard.firstPersonOffset Vec3.ofJson? first
      bumperOffset := ← optional standard.bumperOffset Vec3.ofJson? bumper
      lockedOffset := ← optional standard.lockedOffset Vec3.ofJson? locked
      lockedTilt := ← optional standard.lockedTilt Vec3.ofJson? tilt
      lookAheadDistance := ← optional standard.lookAheadDistance Value.single? ahead
      smoothFollowSpeed := ← optional standard.smoothFollowSpeed Value.single? speed }
  | _ => none

/-- A tuning with every field. -/
def toJson (t : FollowTuning) : Value :=
  .record [("follow_offset", t.followOffset.toJson),
    ("first_person_offset", t.firstPersonOffset.toJson),
    ("bumper_offset", t.bumperOffset.toJson),
    ("locked_offset", t.lockedOffset.toJson),
    ("locked_tilt_degrees", t.lockedTilt.toJson),
    ("look_ahead_distance", .ofSingle t.lookAheadDistance),
    ("smooth_follow_speed", .ofSingle t.smoothFollowSpeed)]

end FollowTuning

namespace FovTuning

open Json

/-- The names of the fields in their order. -/
def fieldNames : List String :=
  ["base", "smooth", "strict", "locked", "bumper", "first", "min", "max"]

/-- Reads fields of view; what is missing keeps its standard value. -/
def ofJson? (v : Value) : Option FovTuning := do
  match ← v.fields? fieldNames with
  | [base, smooth, strict, locked, bumper, first, min, max] =>
    return {
      base := ← optional standard.base Value.single? base
      smooth := ← optional standard.smooth Value.single? smooth
      strict := ← optional standard.strict Value.single? strict
      locked := ← optional standard.locked Value.single? locked
      bumper := ← optional standard.bumper Value.single? bumper
      first := ← optional standard.first Value.single? first
      min := ← optional standard.min Value.single? min
      max := ← optional standard.max Value.single? max }
  | _ => none

/-- Fields of view with every field. -/
def toJson (f : FovTuning) : Value :=
  .record [("base", .ofSingle f.base), ("smooth", .ofSingle f.smooth),
    ("strict", .ofSingle f.strict), ("locked", .ofSingle f.locked),
    ("bumper", .ofSingle f.bumper), ("first", .ofSingle f.first),
    ("min", .ofSingle f.min), ("max", .ofSingle f.max)]

end FovTuning

namespace RecoveryWindow

open Json

/-- Reads a wait; what is missing keeps its standard value. -/
def ofJson? (v : Value) : Option RecoveryWindow := do
  match ← v.fields? ["poll_interval", "timeout"] with
  | [interval, timeout] =>
    return {
      pollInterval := ← optional standard.pollInterval Value.single? interval
      timeout := ← optional standard.timeout Value.single? timeout }
  | _ => none

/-- A wait with every field. -/
def toJson (r : RecoveryWindow) : Value :=
  .record [("poll_interval", .ofSingle r.pollInterval), ("timeout", .ofSingle r.timeout)]

end RecoveryWindow

namespace SurfaceSizes

open Json

/-- Reads sizes; what is missing keeps its standard value. -/
def ofJson? (v : Value) : Option SurfaceSizes := do
  match ← v.fields? ["default_width", "default_height", "min_preset_size"] with
  | [width, height, least] =>
    return {
      defaultWidth := ← optional standard.defaultWidth Value.word? width
      defaultHeight := ← optional standard.defaultHeight Value.word? height
      minPresetSize := ← optional standard.minPresetSize Value.word? least }
  | _ => none

/-- Sizes with every field. -/
def toJson (s : SurfaceSizes) : Value :=
  .record [("default_width", .ofInt s.defaultWidth.toNat),
    ("default_height", .ofInt s.defaultHeight.toNat),
    ("min_preset_size", .ofInt s.minPresetSize.toNat)]

end SurfaceSizes

namespace Config

open Json

/-- The names of the fields in their order. -/
def fieldNames : List String := ["tuning", "fov", "recovery", "surface", "clear_on_preset"]

/-- Reads a configuration; what is missing keeps its standard value. -/
def ofJson? (v : Value) : Option Config := do
  match ← v.fields? fieldNames with
  | [tuning, fov, recovery, surface, clear] =>
    return {
      tuning := ← optional standard.tuning FollowTuning.ofJson? tuning
      fov := ← optional standard.fov FovTuning.ofJson? fov
      recovery := ← optional standard.recovery RecoveryWindow.ofJson? recovery
      surface := ← optional standard.surface SurfaceSizes.ofJson? surface
      clearOnPreset := ← optional standard.clearOnPreset Value.bool? clear }
  | _ => none

/-- A configuration with every field. -/
def toJson (c : Config) : Value :=
  .record [("tuning", c.tuning.toJson), ("fov", c.fov.toJson), ("recovery", c.recovery.toJson),
    ("surface", c.surface.toJson), ("clear_on_preset", .bool c.clearOnPreset)]

/-- Reads the text of a configuration. -/
def ofText? (text : String) : Option Config := (Value.ofText? text).bind ofJson?

/-- The text of a configuration, on several lines. -/
def toText (c : Config) : String := c.toJson.pretty

end Config

end Skycam
