import Skycam.Geometry.Vec3

/-!
# Rotations and poses

A rotation is a quaternion, a pose a position with a rotation. `+Y` is up and `+Z` is forward.
Turning angles into a rotation, facing a point and going from one rotation to another need more
than field operations; these three are supplied for each kind of scalar by `Kinematics`, and what
moves a camera is written over them.
-/

namespace Skycam

/-- A quaternion; `w` is its real part. -/
structure Quat (α : Type) where
  /-- The coordinate along the first imaginary unit. -/
  x : α
  /-- The coordinate along the second imaginary unit. -/
  y : α
  /-- The coordinate along the third imaginary unit. -/
  z : α
  /-- The real part. -/
  w : α
  deriving DecidableEq, Repr

namespace Quat

variable {α : Type} [Scalar α]

/-- The rotation that changes nothing. -/
def identity : Quat α := ⟨0.0, 0.0, 0.0, 1.0⟩

/-- The half turn about the upward axis. -/
def halfTurn : Quat α := ⟨0.0, 1.0, 0.0, 0.0⟩

instance : Mul (Quat α) where
  mul l r :=
    { x := (l.w * r.x + l.x * r.w) + (l.y * r.z - l.z * r.y)
      y := (l.w * r.y - l.x * r.z) + (l.y * r.w + l.z * r.x)
      z := (l.w * r.z + l.x * r.y) + (l.z * r.w - l.y * r.x)
      w := (l.w * r.w - l.x * r.x) + (-(l.y * r.y) - l.z * r.z) }

instance : Neg (Quat α) := ⟨fun q => ⟨-q.x, -q.y, -q.z, -q.w⟩⟩

/-- The imaginary part. -/
def vector (q : Quat α) : Vec3 α := ⟨q.x, q.y, q.z⟩

/-- The vector turned by the rotation. -/
def rotate (q : Quat α) (v : Vec3 α) : Vec3 α :=
  let b := q.vector
  v.scale (q.w * q.w - b.dot b) + b.scale (v.dot b * 2.0) + (b.cross v).scale (q.w * 2.0)

/-- Whether every coordinate is finite. -/
def isFinite (q : Quat α) : Bool :=
  Scalar.isFinite q.x && Scalar.isFinite q.y && Scalar.isFinite q.z && Scalar.isFinite q.w

end Quat

/-- A position and a rotation of a camera or of something it looks at. -/
structure Pose (α : Type) where
  /-- Where it is. -/
  position : Vec3 α
  /-- Where it is turned. -/
  rotation : Quat α
  deriving DecidableEq, Repr

namespace Pose

variable {α : Type} [Scalar α]

/-- The pose at the origin, not turned. -/
def identity : Pose α := ⟨Vec3.zero, Quat.identity⟩

/-- Where a direction of the body points in the world. -/
def transformDirection (p : Pose α) (direction : Vec3 α) : Vec3 α :=
  p.rotation.rotate direction

/-- Where a point of the body lies in the world. -/
def transformPoint (p : Pose α) (point : Vec3 α) : Vec3 α :=
  p.position + p.rotation.rotate point

/-- Where the body looks. -/
def forward (p : Pose α) : Vec3 α := p.rotation.rotate Vec3.ahead

/-- Whether every coordinate is finite. -/
def isFinite (p : Pose α) : Bool := p.position.isFinite && p.rotation.isFinite

end Pose

/-- Scalars for which bodies can be turned. -/
class Kinematics (α : Type) extends Scalar α where
  /-- The rotation for Euler angles in degrees, applied about Z first, then X, then Y. -/
  eulerDegrees : Vec3 α → Quat α
  /-- The upright rotation of a body at the first point that faces the second one; none when the
  points are too close. -/
  facing : Vec3 α → Vec3 α → Option (Quat α)
  /-- The rotation that has gone a part of the way from the first to the second one. -/
  slerp : Quat α → Quat α → α → Quat α

end Skycam
