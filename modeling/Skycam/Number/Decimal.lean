import Skycam.Number.Rounding

/-!
# Decimals

A decimal number is a coefficient times a power of ten. It is rounded to a binary format in exact
arithmetic, once.
-/

namespace Skycam

/-- A number `coefficient · 10^exponent`. -/
structure Decimal where
  /-- The integer factor. -/
  coefficient : Nat
  /-- The exponent of the power of ten. -/
  exponent : Int
  deriving DecidableEq, Repr

namespace Decimal

/-- The numerator of the number as a quotient. -/
def num (d : Decimal) : Nat := d.coefficient * Nat.pow 10 d.exponent.toNat

/-- The denominator of the number as a quotient. -/
def den (d : Decimal) : Nat := Nat.pow 10 (-d.exponent).toNat

/-- The number of the format nearest to the decimal, or `none` when it lies beyond the largest one.
A decimal of more than 400 places is too large for every format here, and one that starts 400
places behind the point rounds to zero in every one, so neither is computed. -/
def nearest (f : BinaryFormat) (d : Decimal) : Option Binary :=
  let places : Int := digitCount d.coefficient + d.exponent
  if d.coefficient = 0 ∨ places < -400 then some ⟨0, f.minExponent⟩
  else if 400 < places then none
  else
    let b := f.nearest d.num d.den
    if f.overflows b then none else some b

end Decimal

end Skycam
