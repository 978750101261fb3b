import Skycam.Geometry.Pose

/-!
# Cameras, surfaces and overlays

A rig carries two cameras, one for the background and one for the scene. What can be set of them is
set for both at once, so one record describes the pair. Both draw into the render surface of the
rig; a surface gets a new generation with each new size. The overlay is what the display shows
around the picture.
-/

namespace Skycam

/-- The part of the picture that a camera draws. -/
inductive CameraLayer where
  /-- The scene, drawn second. -/
  | primary
  /-- The background, drawn first. -/
  | background
  deriving DecidableEq, Repr

namespace CameraLayer

/-- The name of a layer. -/
def label : CameraLayer → String
  | primary => "Primary"
  | background => "Background"

/-- Both layers in the order of drawing. -/
def both : List CameraLayer := [background, primary]

/-- The place of a layer in the order of drawing. -/
def depth : CameraLayer → Int
  | primary => 1
  | background => 0

end CameraLayer

/-- The render surface of a rig. -/
structure Surface where
  /-- The width in pixels. -/
  width : UInt32
  /-- The height in pixels. -/
  height : UInt32
  /-- How often the size has changed. -/
  generation : UInt32
  /-- Whether the surface is gone. -/
  released : Bool
  deriving DecidableEq, Repr

namespace Surface

/-- A new surface. It has at least one pixel. -/
def new (width height : UInt32) : Surface := ⟨max width 1, max height 1, 0, false⟩

/-- The surface at a new size, or `none` when it has that size or is gone. -/
def resize? (s : Surface) (width height : UInt32) : Option Surface :=
  let width := max width 1
  let height := max height 1
  if s.released ∨ (width = s.width ∧ height = s.height) then none
  else some { s with width, height, generation := s.generation + 1 }

/-- The surface when it is gone. -/
def release (s : Surface) : Surface := { s with released := true }

end Surface

/-- The pair of cameras of a rig. -/
structure Cameras (α : Type) where
  /-- The field of view in degrees. -/
  fov : α
  /-- Whether the projection is orthographic. -/
  orthographic : Bool
  /-- Whether the cameras draw at all. -/
  enabled : Bool
  /-- The generation of the surface into which they draw. -/
  surfaceGeneration : UInt32
  deriving DecidableEq, Repr

namespace Cameras

variable {α : Type}

/-- A new pair. -/
def new (fov : α) : Cameras α := ⟨fov, false, true, 0⟩

/-- Makes both cameras draw into a surface. -/
def bind (c : Cameras α) (s : Surface) : Cameras α := { c with surfaceGeneration := s.generation }

end Cameras

/-- What playback and follow modes move: a pose and the cameras there. -/
structure Body (α : Type) where
  /-- Where the rig is and where it looks. -/
  pose : Pose α
  /-- The cameras. -/
  cameras : Cameras α
  deriving DecidableEq, Repr

namespace Body

variable {α : Type}

/-- Puts the rig into a pose. -/
def setPose (b : Body α) (pose : Pose α) : Body α := { b with pose }

/-- Sets the field of view of both cameras. -/
def setFov (b : Body α) (fov : α) : Body α := { b with cameras := { b.cameras with fov } }

/-- Sets the projection of both cameras. -/
def setOrthographic (b : Body α) (orthographic : Bool) : Body α :=
  { b with cameras := { b.cameras with orthographic } }

/-- Switches both cameras on or off. -/
def setEnabled (b : Body α) (enabled : Bool) : Body α :=
  { b with cameras := { b.cameras with enabled } }

end Body

/-- What the display shows of a rig besides its picture. -/
structure Overlay where
  /-- Whether the rig is on the display at all. -/
  attached : Bool
  /-- Whether its window is shown. -/
  windowVisible : Bool
  /-- Whether the name of the target is shown. -/
  nameLabel : Bool
  /-- Whether the readings of the target are shown. -/
  telemetry : Bool
  /-- Whether the window is locked. -/
  locked : Bool
  /-- The name of the target. -/
  label : String
  deriving DecidableEq, Repr

namespace Overlay

/-- The overlay of a new rig. -/
def standard : Overlay := ⟨true, true, true, true, false, ""⟩

/-- What is shown while a target is followed; readings are shown for a remote one only. -/
def showFollow (o : Overlay) (remote : Bool) : Overlay :=
  { o with nameLabel := true, telemetry := remote }

/-- Hides what belongs to a target. -/
def hideFollow (o : Overlay) : Overlay := { o with nameLabel := false, telemetry := false }

/-- Takes the rig off the display. -/
def detach (o : Overlay) : Overlay := { o with attached := false, windowVisible := false }

end Overlay

end Skycam
