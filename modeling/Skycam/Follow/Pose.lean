import Skycam.Camera
import Skycam.Config
import Skycam.Geometry.Rotation

/-!
# Where a follow mode puts the camera

Each mode gives the next pose of a rig from the pose of its target, its own pose and a step of
time. A target without a pose, and a target or a result that is not finite, are faults; the rig
then waits for its target.
-/

namespace Skycam

/-- Why a rig cannot follow its target. -/
inductive FollowFault where
  /-- The target has no pose. -/
  | targetLost (name : String)
  /-- The pose of the target, or the pose that the mode gives, is not finite. -/
  | notFinite
  deriving DecidableEq, Repr

/-- The message of a fault. -/
def FollowFault.message : FollowFault → String
  | targetLost name => s!"target '{name}' has no live pose"
  | notFinite => "computed pose is not finite"

namespace FollowTuning

/-- The point ahead of a target that smooth and strict look at. -/
def lookAhead (t : FollowTuning) (target : Pose Float32) : Vec3 Float32 :=
  target.position + target.forward.scale t.lookAheadDistance

/-- The place behind a target where smooth, strict and binding put the rig. -/
def behind (t : FollowTuning) (target : Pose Float32) : Vec3 Float32 :=
  target.position + target.rotation.rotate t.followOffset

/-- The pose that a rig takes when it binds to a target, in every mode. -/
def bindPose (t : FollowTuning) (target : Pose Float32) : Pose Float32 :=
  let position := t.behind target
  ⟨position, Quat.look (t.lookAhead target - position) Vec3.up⟩

/-- The next pose of a rig. The mode smooth goes a part of the way that grows with the step of time
and is not bounded: a long step overshoots. -/
def nextPose (t : FollowTuning) (mode : FollowMode) (target current : Pose Float32)
    (dt : Float32) : Pose Float32 :=
  match mode with
  | .smooth =>
    let s := t.smoothFollowSpeed * dt
    let position := current.position.lerp (t.behind target) s
    let goal := Quat.look (t.lookAhead target - position) Vec3.up
    ⟨position, Quat.slerp current.rotation goal s⟩
  | .strict =>
    let position := t.behind target
    ⟨position, (Quat.facing position (t.lookAhead target)).getD current.rotation⟩
  | .locked =>
    ⟨target.transformPoint t.lockedOffset, target.rotation * Quat.ofEulerDegrees t.lockedTilt⟩
  | .bumper => ⟨target.transformPoint t.bumperOffset, target.rotation⟩
  | .first => ⟨target.transformPoint t.firstPersonOffset, target.rotation⟩

/-- One step behind a target, which has no pose when it is lost. -/
def follow (t : FollowTuning) (mode : FollowMode) (name : String)
    (target : Option (Pose Float32)) (current : Pose Float32) (dt : Float32) :
    Except FollowFault (Pose Float32) :=
  match target with
  | none => .error (.targetLost name)
  | some target =>
    let next := t.nextPose mode target current dt
    if target.isFinite && next.isFinite then .ok next else .error .notFinite

end FollowTuning

end Skycam
