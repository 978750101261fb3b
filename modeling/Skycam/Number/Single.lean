import Skycam.Number.Numeral
import Skycam.Number.Scaled
import Skycam.Text.Blank

/-!
# Single precision

What a `Float32` is exactly (`Single.view`), the way back from a rounded number to its bits, and
the readers of numerals. A numeral in a script or a preset rounds to single precision directly; a
number of a JSON text is scaled at double precision first unless it is an integer of 64 bits.
-/

namespace Skycam

/-- What a `Float32` stands for. -/
inductive Single.View where
  /-- No number. -/
  | nan
  /-- An infinity. -/
  | infinite (negative : Bool)
  /-- A number, up to its sign `mantissa · 2^exponent`. -/
  | finite (negative : Bool) (magnitude : Binary)
  deriving DecidableEq, Repr

namespace Single

/-- The weight of the sign bit. -/
def signWeight : Nat := 0x80000000

/-- The weight of the exponent field, and the smallest mantissa of full length. -/
def fieldWeight : Nat := 0x800000

/-- The exponent field of what is not finite. -/
def topField : Nat := 255

/-- Whether the sign bit is set. -/
def isNegative (x : Float32) : Bool := signWeight ≤ x.toBits.toNat

/-- Decodes a single-precision number. -/
def view (x : Float32) : View :=
  let bits : Nat := x.toBits.toNat % signWeight
  let field : Nat := bits / fieldWeight
  let fraction := bits % fieldWeight
  if field = topField then if fraction = 0 then .infinite (isNegative x) else .nan
  else if field = 0 then .finite (isNegative x) ⟨fraction, -149⟩
  else .finite (isNegative x) ⟨fieldWeight + fraction, (field : Int) - 150⟩

/-- The size of `x` under the sign of `y`. -/
def copySign (x y : Float32) : Float32 := if isNegative y then -x.abs else x.abs

/-- One under the sign of `x`, a zero's included; what is no number has no sign. -/
def signum (x : Float32) : Float32 := if x.isNaN then x else copySign 1.0 x

/-- Puts a minus sign before a number when asked to. -/
def signed (negative : Bool) (x : Float32) : Float32 := if negative then -x else x

/-- The bits of the positive infinity. -/
def infinityBits : Nat := topField * fieldWeight

/-- The positive infinity. -/
def infinity : Float32 := Float32.ofBits infinityBits.toUInt32

/-- No number. -/
def nan : Float32 := Float32.ofBits 0x7FC00000

/-- Encodes a number that was rounded to single precision. The mantissa carries into the exponent
field when rounding made it a power of two, and a number beyond the largest one is infinite. -/
def ofBinary (b : Binary) : Float32 :=
  let bits := (b.exponent + 149).toNat * fieldWeight + b.mantissa
  Float32.ofBits (min bits infinityBits).toUInt32

/-- The single-precision number nearest to a natural number. -/
def ofNat (n : Nat) : Float32 :=
  if n = 0 then ofBinary ⟨0, -149⟩ else ofBinary (BinaryFormat.single.nearest n 1)

/-- The single-precision number nearest to an integer. -/
def ofInt (n : Int) : Float32 := signed (n < 0) (ofNat n.natAbs)

/-- The single-precision number nearest to a decimal. -/
def ofDecimal (d : Decimal) : Float32 :=
  match d.nearest BinaryFormat.single with
  | some b => ofBinary b
  | none => infinity

/-- The single-precision number nearest to what a decimal with a coefficient of 64 bits scales to at
double precision, or `none` when that is too large. -/
def ofScaled (d : Decimal) : Option Float32 :=
  d.scaled.map fun b =>
    if b.mantissa = 0 then ofBinary ⟨0, -149⟩
    else ofBinary (BinaryFormat.single.nearest b.num b.den)

/-- Splits off one leading sign; the flag says whether it is a minus sign. -/
def splitSign : List Char → Bool × List Char
  | '-' :: rest => (true, rest)
  | '+' :: rest => (false, rest)
  | rest => (false, rest)

/-- Reads a signed numeral, or the name of an infinity or of a NaN in any ASCII case. -/
def ofChars? (cs : List Char) : Option Float32 :=
  let (negative, body) := splitSign cs
  let name := Text.lowerAscii body
  if name = "inf".toList ∨ name = "infinity".toList then some (signed negative infinity)
  else if name = "nan".toList then some nan
  else (Numeral.ofChars? body).map fun n => signed negative (ofDecimal n.value)

/-- Reads a numeral of a finite number. -/
def finiteOfChars? (cs : List Char) : Option Float32 := (ofChars? cs).filter (·.isFinite)

/-- The integer part of a number. -/
def integerPart (negative : Bool) (b : Binary) : Int :=
  let size : Nat := b.num / b.den
  if negative then -size else size

/-- Cuts an integer to the range of unsigned words. -/
def clampUInt32 (n : Int) : UInt32 := (min n.toNat (UInt32.size - 1)).toUInt32

/-- Cuts an integer to the range of signed words. -/
def clampInt32 (n : Int) : Int32 :=
  Int32.ofInt (max Int32.minValue.toInt (min n Int32.maxValue.toInt))

/-- The integer part, cut to the range of unsigned words. -/
def toUInt32 (x : Float32) : UInt32 :=
  match view x with
  | .nan => 0
  | .infinite negative => if negative then 0 else clampUInt32 UInt32.size
  | .finite negative b => clampUInt32 (integerPart negative b)

/-- The integer part, cut to the range of signed words. -/
def toInt32 (x : Float32) : Int32 :=
  match view x with
  | .nan => 0
  | .infinite negative => if negative then Int32.minValue else Int32.maxValue
  | .finite negative b => clampInt32 (integerPart negative b)

/-- The nearest integer; a half goes away from zero. A number without a fraction stays. -/
def round (x : Float32) : Float32 :=
  match view x with
  | .finite negative b =>
    if 0 ≤ b.exponent then x else signed negative (ofNat (divHalfUp b.num b.den))
  | _ => x

end Single

end Skycam
