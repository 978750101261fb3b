import Skycam.Number.Shortest

/-!
# Written numbers

How a number of single precision is spelled. `plain` is the form of presets and messages (no
exponent, no point without a fraction), `json` the form of JSON texts (a point in every number and
an exponent outside a middle range), `fixed` has a set number of places and `scientific` a set
number of places before an exponent. The digits of the first two are the shortest that denote the
number; the last two round its exact value, a half to the even digit.
-/

namespace Skycam

namespace Decimal

/-- The digits of a decimal without zeros at the end, and the number of them that stand before the
point (negative when zeros follow the point). Zero has the single digit `0`. -/
def digits (d : Decimal) : List Char × Int :=
  let all := Nat.toDigits 10 d.coefficient
  let kept := (all.reverse.dropWhile (· == '0')).reverse
  if kept = [] then (['0'], 1) else (kept, all.length + d.exponent)

/-- Digits without an exponent; `whole` ends a number that has no fraction. -/
def positional (whole : List Char) (ds : List Char) (point : Int) : List Char :=
  if point ≤ 0 then "0.".toList ++ List.replicate (-point).toNat '0' ++ ds
  else if ds.length ≤ point then ds ++ List.replicate (point - ds.length).toNat '0' ++ whole
  else ds.take point.toNat ++ '.' :: ds.drop point.toNat

/-- The form of presets and messages. -/
def plain (d : Decimal) : List Char :=
  let (ds, point) := d.digits
  positional [] ds point

/-- The exponent of a JSON number, with its sign. -/
def jsonExponent (e : Int) : List Char :=
  (if e < 0 then '-' else '+') :: Nat.toDigits 10 e.natAbs

/-- The form of JSON texts: positional when the first digit has a weight from `10^-6` to `10^12`. -/
def json (d : Decimal) : List Char :=
  let (ds, point) := d.digits
  if -6 ≤ point - 1 ∧ point - 1 ≤ 12 then positional ".0".toList ds point
  else
    let body := if ds.length = 1 then ds else ds.take 1 ++ '.' :: ds.drop 1
    body ++ 'e' :: jsonExponent (point - 1)

end Decimal

namespace Single

/-- Spells a number: a name for what is not finite, and a minus sign before the size. -/
def spell (size : Binary → List Char) (x : Float32) : String :=
  match view x with
  | .nan => "NaN"
  | .infinite negative => if negative then "-inf" else "inf"
  | .finite negative b => String.ofList ((if negative then ['-'] else []) ++ size b)

/-- The shortest form without an exponent; halfway between two decimals, the one of
greater size. -/
def plain (x : Float32) : String := spell (fun b => (shortest .up b).plain) x

/-- The form of a JSON number, or `none` for what is not finite; halfway between two decimals, the
one with an even last digit. -/
def json? (x : Float32) : Option String :=
  if x.isFinite then some (spell (fun b => (shortest .even b).json) x) else none

/-- Digits with a point before the last `places` ones. -/
def placePoint (places n : Nat) : List Char :=
  let ds := Nat.toDigits 10 n
  let padded := List.replicate (places + 1 - ds.length) '0' ++ ds
  if places = 0 then padded
  else padded.take (padded.length - places) ++ '.' :: padded.drop (padded.length - places)

/-- A number with a set number of places, rounded to nearest. -/
def fixed (places : Nat) (x : Float32) : String :=
  spell (fun b => placePoint places (divNearest (b.num * Nat.pow 10 places) b.den)) x

/-- Whether `fixed` writes zeros only. -/
def isFixedZero (places : Nat) (x : Float32) : Bool :=
  match view x with
  | .finite _ b => divNearest (b.num * Nat.pow 10 places) b.den == 0
  | _ => false

/-- A number with one digit before the point, a set number of places and an exponent. -/
def scientific (places : Nat) (x : Float32) : String :=
  spell (fun b =>
    if b.mantissa = 0 then placePoint places 0 ++ "e0".toList
    else
      let lead := floorLog10 b.num b.den
      let unit := lead - places
      let n := divNearest (b.num * Nat.pow 10 (-unit).toNat) (b.den * Nat.pow 10 unit.toNat)
      let top := Nat.pow 10 places
      let (n, lead) := if n = 10 * top then (top, lead + 1) else (n, lead)
      placePoint places n ++ 'e' :: (toString lead).toList) x

end Single

end Skycam
