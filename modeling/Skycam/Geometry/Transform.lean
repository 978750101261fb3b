import Skycam.Geometry.Rotation

/-!
# Transforms of scene entities

An entity of a scene has a position, a rotation and a scale, which the scene keeps as three columns
and a translation. Where such an entity is and how it is turned is read back off the columns, so
that a mirrored or a flat entity gives what its columns say.
-/

namespace Skycam

/-- Where an entity is, how it is turned and how large it is. -/
structure Transform where
  /-- The position. -/
  position : Vec3 Float32
  /-- The rotation. -/
  rotation : Quat Float32
  /-- The factor along each axis. -/
  scale : Vec3 Float32
  deriving DecidableEq, Repr

/-- The columns of a matrix. -/
structure Columns where
  /-- Where the first axis goes. -/
  x : Vec3 Float32
  /-- Where the second axis goes. -/
  y : Vec3 Float32
  /-- Where the third axis goes. -/
  z : Vec3 Float32
  deriving DecidableEq, Repr

namespace Columns

/-- The columns of a rotation. -/
def ofRotation (q : Quat Float32) : Columns :=
  let x2 := q.x + q.x
  let y2 := q.y + q.y
  let z2 := q.z + q.z
  let xx := q.x * x2
  let xy := q.x * y2
  let xz := q.x * z2
  let yy := q.y * y2
  let yz := q.y * z2
  let zz := q.z * z2
  let wx := q.w * x2
  let wy := q.w * y2
  let wz := q.w * z2
  { x := ⟨1.0 - (yy + zz), xy + wz, xz - wy⟩
    y := ⟨xy - wz, 1.0 - (xx + zz), yz + wx⟩
    z := ⟨xz + wy, yz - wx, 1.0 - (xx + yy)⟩ }

/-- The rotation of scaled columns. A mirrored axis counts as the first one; columns so large that
their determinant is no number have no rotation. -/
def rotation (c : Columns) : Quat Float32 :=
  let det := c.z.dot (c.x.cross c.y)
  let sizeX := c.x.length * Single.signum det
  let sizeY := c.y.length
  let sizeZ := c.z.length
  Quat.ofColumns (c.x.scale (1.0 / sizeX)) (c.y.scale (1.0 / sizeY)) (c.z.scale (1.0 / sizeZ))

end Columns

namespace Transform

/-- The columns of a transform. -/
def columns (t : Transform) : Columns :=
  let c := Columns.ofRotation t.rotation
  ⟨c.x.scale t.scale.x, c.y.scale t.scale.y, c.z.scale t.scale.z⟩

/-- The pose of an entity. Entities look backwards along their third axis, rigs forwards. -/
def pose (t : Transform) : Pose Float32 := ⟨t.position, t.columns.rotation * Quat.halfTurn⟩

end Transform

end Skycam
