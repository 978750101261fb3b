/-!
# Scalars

Poses, playback, placement and the recovery clock are written over any type of scalars. At run time
it is `Float32`, whose operations round and which has infinities and a NaN; the same definitions
read over exact numbers say what they would do without rounding.

Comparisons follow the rule of floating-point numbers: none of them holds of a NaN.
-/

namespace Skycam

/-- Numbers with field operations, comparisons that can be tested, decimal literals, conversions
from and to machine integers and a written form. -/
class Scalar (α : Type) extends Add α, Sub α, Mul α, Div α, Neg α, LT α, LE α, OfScientific α where
  /-- Strict comparison can be tested. -/
  decLt : DecidableLT α
  /-- Comparison can be tested. -/
  decLe : DecidableLE α
  /-- Whether the scalar is a number and not infinite. -/
  isFinite : α → Bool
  /-- Whether the scalar is no number at all. -/
  isNaN : α → Bool
  /-- The scalar nearest to an unsigned word. -/
  ofUInt32 : UInt32 → α
  /-- The scalar nearest to a signed word. -/
  ofInt32 : Int32 → α
  /-- The nearest integer; a half goes away from zero. -/
  round : α → α
  /-- The integer part, cut to the range of unsigned words; 0 for a NaN. -/
  toUInt32 : α → UInt32
  /-- The integer part, cut to the range of signed words; 0 for a NaN. -/
  toInt32 : α → Int32
  /-- How the scalar is written in messages. -/
  spell : α → String

namespace Scalar

variable {α : Type} [Scalar α]

instance (x y : α) : Decidable (x < y) := decLt x y

instance (x y : α) : Decidable (x ≤ y) := decLe x y

/-- The larger of two scalars; a NaN gives way to the other one. -/
def max (x y : α) : α := if isNaN x then y else if x ≤ y then y else x

/-- Cuts a scalar to the range from `lo` to `hi`; a NaN stays. -/
def clamp (lo hi x : α) : α := if x < lo then lo else if hi < x then hi else x

/-- Cuts a scalar to the range from 0 to 1; a NaN stays. -/
def clampUnit (x : α) : α := if x < 0.0 then 0.0 else if 1.0 ≤ x then 1.0 else x

/-- A step of time that may be used: a negative, infinite or NaN one counts as none. -/
def timeStep (dt : α) : α := if isFinite dt then max dt 0.0 else 0.0

end Scalar

end Skycam
