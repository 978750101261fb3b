import Skycam.Number.Float32
import Skycam.Geometry.Pose

/-!
# Rotations in single precision

The operations on rotations that take roots, sines and cosines. Each formula is evaluated in single
precision in the order in which it is written. The interpolation of rotations uses polynomials of
its own for the sine and the arc cosine.
-/

namespace Skycam

namespace Vec3

/-- The length. -/
def length (v : Vec3 Float32) : Float32 := v.lengthSquared.sqrt

/-- The distance of two points. -/
def distance (a b : Vec3 Float32) : Float32 := (a - b).length

/-- The unit vector of the same direction. -/
def normalize (v : Vec3 Float32) : Vec3 Float32 := v.scale (1.0 / v.length)

/-- The unit vector of the same direction, for a vector that is neither too short nor too long to
have one. -/
def normalize? (v : Vec3 Float32) : Option (Vec3 Float32) :=
  let r := 1.0 / v.length
  if r.isFinite ∧ 0.0 < r then some (v.scale r) else none

end Vec3

namespace Quat

/-- The scalar product. -/
def dot (a b : Quat Float32) : Float32 := (a.x * b.x + a.z * b.z) + (a.y * b.y + a.w * b.w)

/-- Multiplies each coordinate by `s`. -/
def scale (q : Quat Float32) (s : Float32) : Quat Float32 :=
  ⟨q.x * s, q.y * s, q.z * s, q.w * s⟩

/-- Divides each coordinate by `s`. -/
def divide (q : Quat Float32) (s : Float32) : Quat Float32 :=
  ⟨q.x / s, q.y / s, q.z / s, q.w / s⟩

/-- The sum of the coordinates. -/
def add (a b : Quat Float32) : Quat Float32 := ⟨a.x + b.x, a.y + b.y, a.z + b.z, a.w + b.w⟩

/-- The difference of the coordinates. -/
def sub (a b : Quat Float32) : Quat Float32 := ⟨a.x - b.x, a.y - b.y, a.z - b.z, a.w - b.w⟩

/-- The quaternion of length one of the same direction. -/
def normalize (q : Quat Float32) : Quat Float32 := q.divide (q.dot q).sqrt

/-- An angle in degrees as an angle in radians. -/
def radians (degrees : Float32) : Float32 := degrees * 0.017453292519943295

/-- The rotation for Euler angles in degrees, applied about Z first, then X, then Y. -/
def ofEulerDegrees (euler : Vec3 Float32) : Quat Float32 :=
  let half (degrees : Float32) : Float32 := radians degrees * 0.5
  let aboutY : Quat Float32 := ⟨0.0, (half euler.y).sin, 0.0, (half euler.y).cos⟩
  let aboutX : Quat Float32 := ⟨(half euler.x).sin, 0.0, 0.0, (half euler.x).cos⟩
  let aboutZ : Quat Float32 := ⟨0.0, 0.0, (half euler.z).sin, (half euler.z).cos⟩
  (aboutY * aboutX * aboutZ).normalize

/-- The rotation that takes the coordinate axes to the three columns. -/
def ofColumns (x y z : Vec3 Float32) : Quat Float32 :=
  if z.z ≤ 0.0 then
    let d := y.y - x.x
    let o := 1.0 - z.z
    if d ≤ 0.0 then
      let k := o - d
      let i := 0.5 / k.sqrt
      ⟨k * i, (x.y + y.x) * i, (x.z + z.x) * i, (y.z - z.y) * i⟩
    else
      let k := o + d
      let i := 0.5 / k.sqrt
      ⟨(x.y + y.x) * i, k * i, (y.z + z.y) * i, (z.x - x.z) * i⟩
  else
    let s := y.y + x.x
    let o := 1.0 + z.z
    if s ≤ 0.0 then
      let k := o - s
      let i := 0.5 / k.sqrt
      ⟨(x.z + z.x) * i, (y.z + z.y) * i, k * i, (x.y - y.x) * i⟩
    else
      let k := o + s
      let i := 0.5 / k.sqrt
      ⟨(y.z - z.y) * i, (z.x - x.z) * i, (x.y - y.x) * i, k * i⟩

/-- The ratio of the circumference of a circle to its diameter, rounded. -/
def pi : Float32 := 3.1415927

/-- A unit vector at a right angle to a unit vector. -/
def orthogonal (a : Vec3 Float32) : Vec3 Float32 :=
  let g := Single.copySign 1.0 a.z
  let t := -1.0 / (g + a.z)
  let u := a.x * a.y * t
  ⟨u, g + a.y * a.y * t, -a.y⟩

/-- The shortest rotation that takes one unit vector to another; a half turn about some axis when
they are opposite. -/
def ofArc (a b : Vec3 Float32) : Quat Float32 :=
  let almostOne : Float32 := 0.99999976158142089844
  let d := a.dot b
  if almostOne < d then Quat.identity
  else if d < -almostOne then
    let axis := (orthogonal a).scale (pi * 0.5).sin
    ⟨axis.x, axis.y, axis.z, (pi * 0.5).cos⟩
  else
    let c := a.cross b
    Quat.normalize ⟨c.x, c.y, c.z, 1.0 + d⟩

/-- The square of the sine below which two unit vectors count as parallel. -/
def parallelLimit : Float32 := 0.00000011920928955078125

/-- The rotation that looks along `direction` with its upward axis as close to `up` as possible. A
direction that has no unit vector changes nothing; one parallel to `up` takes the shortest arc. -/
def look (direction up : Vec3 Float32) : Quat Float32 :=
  match direction.normalize? with
  | none => Quat.identity
  | some z =>
    let x := up.cross z
    if x.lengthSquared ≤ parallelLimit then ofArc Vec3.ahead z
    else
      let x := x.normalize
      let y := z.cross x
      (ofColumns x y z).normalize

/-- The square of the distance up to which a point is too close to be looked at. -/
def tooClose : Float32 := 0.001

/-- The upright rotation of a body at `origin` that faces `point`. -/
def facing (origin point : Vec3 Float32) : Option (Quat Float32) :=
  let direction := point - origin
  if tooClose < direction.lengthSquared then some (look direction Vec3.up) else none

/-- The value at `x` of a polynomial, highest coefficient first. -/
def horner (coefficients : List Float32) (x : Float32) : Float32 :=
  match coefficients with
  | [] => 0.0
  | c :: cs => cs.foldl (fun r c => r * x + c) c

/-- The arc cosine of a number from 0 to 1. -/
def arcCos (v : Float32) : Float32 :=
  let x := v.abs
  let rest := Scalar.max (1.0 - x) 0.0
  let r := horner [-0.0012624911, 0.00667009, -0.017088126, 0.03089188, -0.050174303, 0.08897899,
    -0.2145988, 1.5707963] x * rest.sqrt
  if 0.0 ≤ v then r else pi - r

/-- The nearest integer, a half to the even one, for a number with a fraction. -/
def roundEven (x : Float32) : Float32 :=
  if x.abs ≤ 8388608.0 then
    let shift := Single.copySign 8388608.0 x
    x + shift - shift
  else x

/-- The sine. -/
def sine (v : Float32) : Float32 :=
  let x := v - 6.2831855 * roundEven (v * 0.15915494)
  let x := if x.abs ≤ 1.5707964 then x else Single.copySign pi x - x
  horner [-2.3889859e-8, 2.7525562e-6, -0.00019840874, 0.008333331, -0.16666667, 1.0] (x * x) * x

/-- The rotation that has gone the part `s` of the way from `a` to `b`, the shorter way round. Two
rotations that almost agree are joined by a straight line. -/
def slerp (a b : Quat Float32) (s : Float32) : Quat Float32 :=
  let d := a.dot b
  let (b, d) := if d < 0.0 then (-b, -d) else (b, d)
  if 0.9995 < d then normalize (add ((sub b a).scale s) a)
  else
    let angle := arcCos d
    let whole := sine angle
    (add (a.scale (sine (angle * (1.0 - s)))) (b.scale (sine (angle * s)))).divide whole

end Quat

instance : Kinematics Float32 where
  eulerDegrees := Quat.ofEulerDegrees
  facing := Quat.facing
  slerp := Quat.slerp

/-- The pose at a position, turned by Euler angles in degrees. -/
def Pose.ofEulerDegrees (position euler : Vec3 Float32) : Pose Float32 :=
  ⟨position, Quat.ofEulerDegrees euler⟩

end Skycam
