import Skycam.Follow.Mode
import Skycam.Geometry.Vec3
import Skycam.Geometry.Pose
import Skycam.Text.Blank

/-!
# Rig ids, events and frames

What an update of a fleet tells the outside: the events since the last update, in each of which
something happened to one rig, and a frame for each rig, which is what there is to see of it.
-/

namespace Skycam

/-- The name of a rig. -/
structure RigId where
  /-- The name. -/
  text : String
  deriving DecidableEq, Repr

namespace RigId

/-- Whether a name has blank characters only; such a name names no rig. -/
def isBlank (id : RigId) : Bool := Text.isBlankText id.text

/-- The hexadecimal digits of a number, `count` of them. -/
def hexDigits : Nat → Nat → List Char
  | 0, _ => []
  | count + 1, n => hexDigits count (n / 16) ++ [Nat.digitChar (n % 16)]

/-- The name made of 122 random bits: thirty-two hexadecimal digits in five groups, with the version
4 at the head of the third group and the variant at the head of the fourth. -/
def ofRandom (high middle low : Nat) : RigId :=
  let groups : List (List Char) :=
    [hexDigits 8 (high / 0x10000), hexDigits 4 high, '4' :: hexDigits 3 middle,
      hexDigits 4 (0x8000 + low / 0x1000000000000 % 0x4000), hexDigits 12 low]
  ⟨String.ofList ("-".toList.intercalate groups)⟩

end RigId

/-- Why a rig is gone. -/
inductive DestroyReason where
  /-- It was closed. -/
  | closed
  /-- Its target did not come back in time. -/
  | recoveryTimeout
  /-- All rigs were shut down. -/
  | shutdown
  deriving DecidableEq, Repr

/-- The name of a reason. -/
def DestroyReason.label : DestroyReason → String
  | closed => "Closed"
  | recoveryTimeout => "RecoveryTimeout"
  | shutdown => "Shutdown"

/-- What can happen to a rig. -/
inductive RigChange where
  /-- It was created. -/
  | created (cinematic : Bool)
  /-- It was bound to a target. -/
  | targetBound (username : String)
  /-- It lost its target. -/
  | targetLost (username reason : String)
  /-- It found its target again after some seconds. -/
  | recovered (username : String) (after : Float32)
  /-- Its follow mode changed. -/
  | followModeChanged (mode : FollowMode)
  /-- A keyframe of its script became current. -/
  | keyframeStarted (index : Nat)
  /-- Its script came to its end. -/
  | playbackFinished
  /-- Its render surface has a new size. -/
  | surfaceResized (width height : UInt32)
  /-- It is gone. -/
  | destroyed (reason : DestroyReason)
  deriving DecidableEq, Repr

/-- A change of one rig. -/
structure Event where
  /-- The rig. -/
  rig : RigId
  /-- What happened to it. -/
  change : RigChange
  deriving DecidableEq, Repr

/-- What there is to see of a rig after an update. -/
structure Frame where
  /-- The rig. -/
  rig : RigId
  /-- Where it is. -/
  position : Vec3 Float32
  /-- How it is turned. -/
  rotation : Quat Float32
  /-- The field of view in degrees. -/
  fov : Float32
  /-- Whether the projection is orthographic. -/
  orthographic : Bool
  /-- Whether the cameras draw. -/
  camerasEnabled : Bool
  /-- The width of the render surface. -/
  width : UInt32
  /-- The height of the render surface. -/
  height : UInt32
  /-- The generation of the render surface. -/
  generation : UInt32
  deriving DecidableEq, Repr

end Skycam
