import Skycam.Geometry.Pose
import Skycam.Number.Float32

/-!
# Arithmetic that does not round

Where a body is after a movement depends on rounding. What a movement is meant to reach is said over
scalars that do not round at its end (`Exact`). Rational numbers are such scalars. Angles count in
whole half turns there, whose sines and cosines are rational, and a rotation goes to its goal on a
straight line, which leaves the arc only between its ends.

The comparisons on which a movement depends (`Scalar.Ordered`) hold of rounded numbers as well.
-/

namespace Skycam

/-- Scalars whose comparisons with 0 and 1 do not contradict each other. -/
class Scalar.Ordered (α : Type) [Scalar α] : Prop where
  zero_le_zero : (0.0 : α) ≤ 0.0
  not_pos_of_le_zero : ∀ x : α, x ≤ 0.0 → ¬0.0 < x
  not_one_le_zero : ¬(1.0 : α) ≤ 0.0

/-- Scalars that do not round where a keyframe ends. Numbers and rotations that go all the way reach
their goal, rotations perhaps under the other sign, and the sign of a quaternion does not matter
for what it turns. -/
class Exact (α : Type) [Kinematics α] : Prop where
  tween_one : ∀ a b : α, a + (b - a) * 1.0 = b
  slerp_one : ∀ p q : Quat α, Kinematics.slerp p q 1.0 = q ∨ Kinematics.slerp p q 1.0 = -q
  neg_neg : ∀ q : Quat α, - -q = q
  neg_mul : ∀ p q : Quat α, -p * q = -(p * q)
  neg_rotate : ∀ (q : Quat α) (v : Vec3 α), (-q).rotate v = q.rotate v

section

variable {α : Type} [Kinematics α]

theorem Vec3.add_eq (a b : Vec3 α) : a + b = ⟨a.x + b.x, a.y + b.y, a.z + b.z⟩ := rfl

theorem Quat.neg_eq (q : Quat α) : -q = ⟨-q.x, -q.y, -q.z, -q.w⟩ := rfl

theorem Quat.mul_eq (p q : Quat α) : p * q =
    ⟨(p.w * q.x + p.x * q.w) + (p.y * q.z - p.z * q.y),
      (p.w * q.y - p.x * q.z) + (p.y * q.w + p.z * q.x),
      (p.w * q.z + p.x * q.y) + (p.z * q.w - p.y * q.x),
      (p.w * q.w - p.x * q.x) + (-(p.y * q.y) - p.z * q.z)⟩ := rfl

/-- The whole way leads to the end. -/
theorem Vec3.lerp_one [Exact α] (a b : Vec3 α) : a.lerp b 1.0 = b := by
  have hx := Exact.tween_one a.x b.x
  have hy := Exact.tween_one a.y b.y
  have hz := Exact.tween_one a.z b.z
  show (⟨a.x + (b.x - a.x) * 1.0, a.y + (b.y - a.y) * 1.0, a.z + (b.z - a.z) * 1.0⟩ : Vec3 α) = b
  rw [hx, hy, hz]

end

/-! ## Single precision -/

open Float.Model in
theorem Single.unpack_zero : (0.0 : Float32).toModel.unpack = .zero .positive := by
  have hbits : (0.0 : Float32).toModel.toBits = 0 := by decide
  unfold Float32.Model.unpack
  rw [hbits]
  rfl

open Float.Model in
/-- What is at most zero is not positive. -/
theorem Single.not_pos_of_le_zero (x : Float32) (h : x ≤ 0.0) : ¬0.0 < x := by
  intro hpos
  have hle : x.toModel.unpack.le (0.0 : Float32).toModel.unpack = true := of_decide_eq_true h
  have hlt : (0.0 : Float32).toModel.unpack.lt x.toModel.unpack = true := of_decide_eq_true hpos
  rw [unpack_zero] at hle hlt
  cases hx : x.toModel.unpack with
  | notANumber =>
    rw [hx] at hle
    cases hle
  | zero sign =>
    rw [hx] at hlt
    cases hlt
  | infinity sign =>
    rw [hx] at hle hlt
    cases sign with
    | positive => cases hle
    | negative => cases hlt
  | finite sign mantissa exponent hmantissa =>
    rw [hx] at hle hlt
    cases sign with
    | positive => cases hle
    | negative => cases hlt

instance : Scalar.Ordered Float32 where
  zero_le_zero := by decide
  not_pos_of_le_zero := Single.not_pos_of_le_zero
  not_one_le_zero := by decide

/-! ## Rational numbers -/

instance : Scalar Rat where
  decLt := inferInstance
  decLe := inferInstance
  isFinite _ := true
  isNaN _ := false
  ofUInt32 n := n.toNat
  ofInt32 n := n.toInt
  round x := if 0 ≤ x then ↑(x + 1 / 2).floor else -↑(-x + 1 / 2).floor
  toUInt32 x := UInt32.ofNat (min x.floor.toNat 4294967295)
  toInt32 x := Int32.ofInt (max (-2147483648) (min (x.num.tdiv x.den) 2147483647))
  spell x := s!"{x.num}/{x.den}"

namespace Quat

/-- The sine and the cosine of so many right angles. -/
def rightAngles (n : Int) : Rat × Rat :=
  match n % 4 with
  | 0 => (0, 1)
  | 1 => (1, 0)
  | 2 => (0, -1)
  | _ => (-1, 0)

/-- The rotation for Euler angles in degrees, each cut to whole half turns. -/
def ofHalfTurns (euler : Vec3 Rat) : Quat Rat :=
  let half (degrees : Rat) : Rat × Rat := rightAngles (degrees / 180).floor
  let aboutY : Quat Rat := ⟨0, (half euler.y).1, 0, (half euler.y).2⟩
  let aboutX : Quat Rat := ⟨(half euler.x).1, 0, 0, (half euler.x).2⟩
  let aboutZ : Quat Rat := ⟨0, 0, (half euler.z).1, (half euler.z).2⟩
  aboutY * aboutX * aboutZ

/-- The quaternion that has gone the part `s` of the straight way from `a` to `b` or to `-b`,
whichever is nearer. -/
def straight (a b : Quat Rat) (s : Rat) : Quat Rat :=
  let goal := if a.x * b.x + a.y * b.y + a.z * b.z + a.w * b.w < 0 then -b else b
  ⟨a.x + (goal.x - a.x) * s, a.y + (goal.y - a.y) * s, a.z + (goal.z - a.z) * s,
    a.w + (goal.w - a.w) * s⟩

end Quat

instance : Kinematics Rat where
  eulerDegrees := Quat.ofHalfTurns
  facing _ _ := none
  slerp := Quat.straight

theorem tween_one_rational (a b : Rat) : a + (b - a) * 1.0 = b := by grind

/-- The straight way between two rotations ends at the second one, up to sign. -/
theorem Quat.straight_one (a b : Quat Rat) :
    Quat.straight a b 1.0 = b ∨ Quat.straight a b 1.0 = -b := by
  unfold Quat.straight
  simp only [tween_one_rational]
  split
  · exact Or.inr rfl
  · exact Or.inl rfl

instance : Scalar.Ordered Rat where
  zero_le_zero := Rat.le_refl
  not_pos_of_le_zero x hle hlt := by grind
  not_one_le_zero := by grind

instance : Exact Rat where
  tween_one := tween_one_rational
  slerp_one := Quat.straight_one
  neg_neg q := by simp only [Quat.neg_eq, Rat.neg_neg]
  neg_mul p q := by
    simp only [Quat.mul_eq, Quat.neg_eq]
    congr 1 <;> grind
  neg_rotate q v := by
    simp only [Quat.rotate, Quat.vector, Quat.neg_eq, Vec3.add_eq, Vec3.dot, Vec3.scale,
      Vec3.cross]
    congr 1 <;> grind

end Skycam
