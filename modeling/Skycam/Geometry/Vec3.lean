import Skycam.Number.Scalar

/-!
# Vectors

Positions, directions and Euler angles are triples of scalars. The order in which products and
sums are formed is part of the definitions: scalars may round.
-/

namespace Skycam

/-- A triple of scalars. -/
structure Vec3 (α : Type) where
  /-- The coordinate to the right. -/
  x : α
  /-- The coordinate upwards. -/
  y : α
  /-- The coordinate forwards. -/
  z : α
  deriving DecidableEq, Repr

namespace Vec3

variable {α : Type} [Scalar α]

/-- The origin. -/
def zero : Vec3 α := ⟨0.0, 0.0, 0.0⟩

/-- The upward unit vector. -/
def up : Vec3 α := ⟨0.0, 1.0, 0.0⟩

/-- The forward unit vector. -/
def ahead : Vec3 α := ⟨0.0, 0.0, 1.0⟩

instance : Add (Vec3 α) := ⟨fun a b => ⟨a.x + b.x, a.y + b.y, a.z + b.z⟩⟩

instance : Sub (Vec3 α) := ⟨fun a b => ⟨a.x - b.x, a.y - b.y, a.z - b.z⟩⟩

/-- Multiplies each coordinate by `s`. -/
def scale (v : Vec3 α) (s : α) : Vec3 α := ⟨v.x * s, v.y * s, v.z * s⟩

/-- Divides each coordinate by `s`. -/
def divide (v : Vec3 α) (s : α) : Vec3 α := ⟨v.x / s, v.y / s, v.z / s⟩

/-- The scalar product. -/
def dot (a b : Vec3 α) : α := a.x * b.x + a.y * b.y + a.z * b.z

/-- The vector product. -/
def cross (a b : Vec3 α) : Vec3 α :=
  ⟨a.y * b.z - b.y * a.z, a.z * b.x - b.z * a.x, a.x * b.y - b.x * a.y⟩

/-- The square of the length. -/
def lengthSquared (v : Vec3 α) : α := v.dot v

/-- The point that has gone the part `s` of the way from `a` to `b`. -/
def lerp (a b : Vec3 α) (s : α) : Vec3 α := a + (b - a).scale s

/-- Whether every coordinate is finite. -/
def isFinite (v : Vec3 α) : Bool :=
  Scalar.isFinite v.x && Scalar.isFinite v.y && Scalar.isFinite v.z

end Vec3

end Skycam
