/-!
# Rounding to nearest

Division to the nearest integer with a half going to the even one, and on top of it the rounding of
a positive quotient to a binary format: the quotient is divided by the weight of the last place it
can have there, and the result is the multiple of that weight that lies nearest.
-/

namespace Skycam

/-- The integer nearest to `num / den`; a half goes to the even neighbour. -/
def divNearest (num den : Nat) : Nat :=
  let q := num / den
  let twice := 2 * (num % den)
  if twice < den then q else if den < twice then q + 1 else q + q % 2

/-- The integer nearest to `num / den`; a half goes up. -/
def divHalfUp (num den : Nat) : Nat := (2 * num + den) / (2 * den)

/-- The exponent `e` with `2^e ≤ num / den < 2^(e+1)`. -/
def floorLog2 (num den : Nat) : Int :=
  let d : Int := num.log2 - den.log2
  if den * Nat.pow 2 d.toNat ≤ num * Nat.pow 2 (-d).toNat then d else d - 1

/-- The number of decimal digits of a natural number (one for zero). -/
def digitCount (n : Nat) : Nat := (Nat.toDigits 10 n).length

/-- The exponent `e` with `10^e ≤ num / den < 10^(e+1)`. -/
def floorLog10 (num den : Nat) : Int :=
  let d : Int := digitCount num - digitCount den
  if den * Nat.pow 10 d.toNat ≤ num * Nat.pow 10 (-d).toNat then d else d - 1

/-- A number `mantissa · 2^exponent`. -/
structure Binary where
  /-- The integer factor. -/
  mantissa : Nat
  /-- The exponent of the power of two. -/
  exponent : Int
  deriving DecidableEq, Repr

/-- A binary format: how many bits a mantissa has and which exponents its last place can have. -/
structure BinaryFormat where
  /-- The number of bits of a mantissa. -/
  precision : Nat
  /-- The smallest exponent of the last place. -/
  minExponent : Int
  /-- The largest exponent of the last place. -/
  maxExponent : Int

namespace BinaryFormat

/-- Single precision. -/
def single : BinaryFormat := ⟨24, -149, 104⟩

/-- Double precision. -/
def double : BinaryFormat := ⟨53, -1074, 971⟩

/-- The number of the format nearest to `num / den`; a tie goes to the even mantissa. The exponent
is not bounded from above here, and the mantissa may be one power of two too long. -/
def nearest (f : BinaryFormat) (num den : Nat) : Binary :=
  let q := Max.max (floorLog2 num den + 1 - f.precision) f.minExponent
  ⟨divNearest (num * Nat.pow 2 (-q).toNat) (den * Nat.pow 2 q.toNat), q⟩

/-- Whether a rounded number is too large for the format. -/
def overflows (f : BinaryFormat) (b : Binary) : Bool :=
  f.maxExponent < b.exponent || (b.exponent == f.maxExponent && b.mantissa == Nat.pow 2 f.precision)

end BinaryFormat

/-- The numerator of `mantissa · 2^exponent` as a quotient. -/
def Binary.num (b : Binary) : Nat := b.mantissa * Nat.pow 2 b.exponent.toNat

/-- The denominator of `mantissa · 2^exponent` as a quotient. -/
def Binary.den (b : Binary) : Nat := Nat.pow 2 (-b.exponent).toNat

end Skycam
