import Skycam.Number.Decimal

/-!
# Decimals by scaling

The quick way from a decimal to double precision: the coefficient is rounded, and then multiplied
with a power of ten or divided by one, rounded again. A coefficient of 53 bits and a power of ten up
to the 22nd are exact, and the result then is the nearest number; beyond that it may be a neighbour
of it.
-/

namespace Skycam

namespace BinaryFormat

/-- The product of two numbers, rounded to the format. -/
def mul (f : BinaryFormat) (a b : Binary) : Binary :=
  f.nearest (a.num * b.num) (a.den * b.den)

/-- The quotient of two positive numbers, rounded to the format. -/
def div (f : BinaryFormat) (a b : Binary) : Binary :=
  f.nearest (a.num * b.den) (a.den * b.num)

end BinaryFormat

namespace Decimal

/-- The largest exponent of a power of ten within double precision. -/
def topPower : Nat := 308

/-- A power of ten, rounded to double precision. -/
def doublePower (n : Nat) : Binary := BinaryFormat.double.nearest (Nat.pow 10 n) 1

/-- The double-precision number that a decimal with a coefficient of 64 bits scales to, or `none`
when it is too large. A decimal whose power of ten is smaller than any that is divided by counts as
zero: it is less than `10^(-289)`, which is nothing in single precision. -/
def scaled (d : Decimal) : Option Binary :=
  let size := BinaryFormat.double.nearest d.coefficient 1
  if d.coefficient = 0 ∨ d.exponent < -topPower then some ⟨0, BinaryFormat.double.minExponent⟩
  else if topPower < d.exponent then none
  else if d.exponent < 0 then
    some (BinaryFormat.double.div size (doublePower (-d.exponent).toNat))
  else
    let b := BinaryFormat.double.mul size (doublePower d.exponent.toNat)
    if BinaryFormat.double.overflows b then none else some b

end Decimal

end Skycam
