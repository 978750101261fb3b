import Skycam.Camera
import Skycam.Config
import Skycam.Follow.Pose
import Skycam.Playback
import Skycam.Preset
import Skycam.Recovery
import Skycam.Rig.Event
import Skycam.Roster.Basic

/-!
# Rigs

A rig is a body with cameras that either a script or a follow mode moves, together with its target,
its render surface, its placement and its overlay. The functions here are what can be asked of one
rig; each leaves the events that it causes in the rig until they are delivered.
-/

namespace Skycam

/-- Who moves a rig. -/
inductive RigControl where
  /-- Its script. -/
  | cinematic
  /-- Its follow mode. -/
  | follow
  deriving DecidableEq, Repr

/-- The name of a way to be moved. -/
def RigControl.label : RigControl → String
  | cinematic => "Cinematic"
  | follow => "Follow"

/-- The target of a rig. -/
inductive Target where
  /-- There is none. -/
  | unbound
  /-- A player whose handle is followed. -/
  | bound (username : String) (handle : Handle) (isLocal : Bool)
  /-- A player that was lost and is waited for. -/
  | recovering (username : String) (timer : RecoveryTimer Float32)
  deriving DecidableEq, Repr

namespace Target

/-- The name of the target. -/
def username? : Target → Option String
  | unbound => none
  | bound username _ _ => some username
  | recovering username _ => some username

/-- Whether a handle is followed. -/
def isBound : Target → Bool
  | bound _ _ _ => true
  | _ => false

/-- Whether the target is waited for. -/
def isRecovering : Target → Bool
  | recovering _ _ => true
  | _ => false

/-- Whether the local viewer is followed. -/
def isLocal : Target → Bool
  | bound _ _ isLocal => isLocal
  | _ => false

end Target

/-- A camera rig. -/
structure Rig where
  /-- The name. -/
  id : RigId
  /-- The pose and the cameras. -/
  body : Body Float32
  /-- The follow mode. -/
  mode : FollowMode
  /-- The target. -/
  target : Target
  /-- The script and how far it has been played. -/
  playback : Playback Float32
  /-- The render surface. -/
  surface : Surface
  /-- What the display shows besides the picture. -/
  overlay : Overlay
  /-- Where the window lies on the display. -/
  placement : PixelRect
  /-- Who moves the rig. -/
  control : RigControl
  /-- Why the rig is gone, once it is. -/
  destroyed : Option DestroyReason
  /-- What has happened and was not delivered yet. -/
  events : List RigChange
  deriving DecidableEq, Repr

namespace Rig

/-- A new rig. A cinematic one has a hidden window and shows nothing of a target. -/
def new (config : Config) (id : RigId) (cinematic : Bool) : Rig :=
  let surface := Surface.new config.surface.defaultWidth config.surface.defaultHeight
  let body : Body Float32 := ⟨Pose.identity, (Cameras.new config.fov.base).bind surface⟩
  { id
    body := body.setFov (config.fov.forMode .smooth)
    mode := .smooth
    target := .unbound
    playback := Playback.new
    surface
    overlay :=
      if cinematic then { Overlay.standard with windowVisible := false }.hideFollow
      else Overlay.standard
    placement := ⟨0, 0, surface.width, surface.height⟩
    control := if cinematic then .cinematic else .follow
    destroyed := none
    events := [.created cinematic] }

/-- Adds an event. -/
def emit (r : Rig) (change : RigChange) : Rig := { r with events := r.events ++ [change] }

/-- The events of the rig with its name. -/
def deliveries (r : Rig) : List Event := r.events.map fun change => ⟨r.id, change⟩

/-- The rig once its events are delivered. -/
def delivered (r : Rig) : Rig := { r with events := [] }

/-- Whether the script moves the rig. -/
def isCinematic (r : Rig) : Bool := r.control == .cinematic

/-- The name of the target. -/
def targetName? (r : Rig) : Option String := r.target.username?

/-- The mode, the target and the placement of the rig. -/
def preset (r : Rig) (unit : PlacementUnit) (display : DisplaySize) : Preset :=
  Preset.capture r.mode (r.targetName?.getD "") r.placement unit display

/-- What there is to see of the rig. -/
def frame (r : Rig) : Frame where
  rig := r.id
  position := r.body.pose.position
  rotation := r.body.pose.rotation
  fov := r.body.cameras.fov
  orthographic := r.body.cameras.orthographic
  camerasEnabled := r.body.cameras.enabled
  width := r.surface.width
  height := r.surface.height
  generation := r.surface.generation

/-- The rig once it follows a handle whose pose is `target`. -/
def attached (config : Config) (r : Rig) (username : String) (handle : Handle) (isLocal : Bool)
    (target : Pose Float32) : Rig :=
  let body := (r.body.setEnabled true).setFov (config.fov.forMode r.mode)
  { r with
    body := body.setPose (config.tuning.bindPose target)
    overlay := { r.overlay with label := username, telemetry := !isLocal }
    target := .bound username handle isLocal }.emit (.targetBound username)

/-- Follows a handle whose pose is `target`, and notes it. -/
def attach (config : Config) (r : Rig) (username : String) (handle : Handle) (isLocal : Bool)
    (target : Pose Float32) : Logged Rig := do
  Logged.note .info s!"rig '{r.id.text}': following '{username}'"
  return r.attached config username handle isLocal target

/-- The pose of a handle, if it is finite. -/
def usablePose? (roster : Roster Float32) (h : Handle) : Option (Pose Float32) :=
  (roster.pose? h).filter (·.isFinite)

/-- Binds the rig to a player. There must be a live entity with a finite pose. -/
def bind? (config : Config) (r : Rig) (e : Entry) (roster : Roster Float32) :
    Logged (Option Rig) :=
  match e.followHandle? with
  | none => do
    Logged.note .warn s!"rig '{r.id.text}': '{e.username}' has no live entity"
    return none
  | some h =>
    match usablePose? roster h with
    | some pose => some <$> r.attach config e.username h e.isLocal pose
    | none => do
      Logged.note .warn s!"rig '{r.id.text}': '{e.username}' has no usable pose"
      return none

/-- Binds the rig to the first player whose follow handle has a pose. That pose must be finite. -/
def bindFirst? (config : Config) (r : Rig) (roster : Roster Float32) : Logged (Option Rig) :=
  match roster.firstValid? with
  | none => do
    Logged.note .debug s!"rig '{r.id.text}': no valid target in the roster"
    return none
  | some (username, h) =>
    match usablePose? roster h with
    | some pose => some <$> r.attach config username h (h.anchor == .reset) pose
    | none => return none

/-- Takes a follow mode and its field of view. -/
def setFollowMode (config : Config) (r : Rig) (mode : FollowMode) : Rig :=
  let set := { r with mode, body := r.body.setFov (config.fov.forMode mode) }
  if r.mode = mode then set else set.emit (.followModeChanged mode)

/-- Shows what belongs to a target. -/
def showFollow (r : Rig) : Rig := { r with overlay := r.overlay.showFollow !r.target.isLocal }

/-- Hides what belongs to a target. -/
def hideFollow (r : Rig) : Rig := { r with overlay := r.overlay.hideFollow }

/-- Lets a script move the rig: the given one, or the one it has from its start. -/
def enterCinematic (r : Rig) (uiVisible : Bool) (script : Option (Script Float32)) : Rig :=
  { r with
    overlay := { r.overlay with windowVisible := uiVisible }.hideFollow
    control := .cinematic
    playback :=
      match script with
      | some script => r.playback.start script
      | none => r.playback.restart }

/-- Stops the script and lets the follow mode move the rig. -/
def leaveCinematic (r : Rig) (uiVisible : Bool) : Rig :=
  { r with
    overlay := { r.overlay with windowVisible := uiVisible }
    playback := r.playback.stop
    control := .follow }.showFollow

/-- Starts a script. Who moves the rig is decided by its keyframes. -/
def runScript (r : Rig) (script : Script Float32) : Rig :=
  { r with playback := r.playback.start script }

/-- Stops the script. -/
def stopScript (r : Rig) : Rig := { r with playback := r.playback.stop }

/-- Shows or hides the window, unless the rig is cinematic; the flag says whether it was done. -/
def setUiVisible (r : Rig) (visible : Bool) : Rig × Bool :=
  if r.isCinematic then (r, false)
  else ({ r with overlay := { r.overlay with windowVisible := visible } }, true)

/-- Locks or unlocks the window. -/
def setLocked (r : Rig) (locked : Bool) : Rig :=
  { r with overlay := { r.overlay with locked } }

/-- Gives the render surface a new size; the flag says whether it was another one. -/
def resizeSurface (r : Rig) (width height : UInt32) : Rig × Bool :=
  match r.surface.resize? width height with
  | none => (r, false)
  | some surface =>
    ({ r with
      surface
      body := { r.body with cameras := r.body.cameras.bind surface } }.emit
        (.surfaceResized surface.width surface.height), true)

/-- Moves the window. The render surface takes the size of the window. -/
def setPlacement (r : Rig) (rect : PixelRect) : Rig :=
  ({ r with placement := rect }.resizeSurface rect.width rect.height).1

/-- The rig once it is gone: the cameras are off, the surface is released and nothing is shown. -/
def ended (r : Rig) (reason : DestroyReason) : Rig :=
  { r with
    body := r.body.setEnabled false
    playback := r.playback.stop
    surface := r.surface.release
    overlay := r.overlay.detach
    target := .unbound
    destroyed := some reason }.emit (.destroyed reason)

/-- Does away with the rig, and notes it. -/
def destroy (r : Rig) (reason : DestroyReason) : Logged Rig := do
  Logged.note .info s!"rig '{r.id.text}' destroyed ({reason.label})"
  return r.ended reason

end Rig

end Skycam
