import Skycam.Number.Decimal

/-!
# Numerals

A numeral is read by one grammar: digits with at most one point among or beside them, and possibly
an exponent; digits are `0` to `9`. What it denotes exactly is `Numeral.value`. A reader that counts
in a double word keeps as many digits as that holds and takes the others for their places only
(`Numeral.leading`).
-/

namespace Skycam

namespace Decimal

/-- The integer that one more digit makes of an integer. -/
def pushDigit (n : Nat) (d : Char) : Nat := 10 * n + (d.toNat - '0'.toNat)

/-- The number that a list of digits denotes. -/
def ofDigits (ds : List Char) : Nat := ds.foldl pushDigit 0

end Decimal

/-- An unsigned numeral, taken apart. -/
structure Numeral where
  /-- The digits before the point. -/
  whole : List Char
  /-- The digits behind the point. -/
  fraction : List Char
  /-- The power of ten that the exponent stands for. -/
  exponent : Int
  deriving DecidableEq, Repr

namespace Numeral

/-- Reads an exponent: digits after an optional sign, and nothing else. -/
def exponent? (cs : List Char) : Option Int :=
  let read (ds : List Char) : Option Nat :=
    if ds ≠ [] ∧ ds.all Char.isDigit then some (Decimal.ofDigits ds) else none
  match cs with
  | '+' :: ds => (read ds).map Int.ofNat
  | '-' :: ds => (read ds).map fun n => -(n : Int)
  | ds => (read ds).map Int.ofNat

/-- Reads an unsigned numeral. At least one digit stands before the exponent. -/
def ofChars? (cs : List Char) : Option Numeral :=
  let whole := cs.takeWhile Char.isDigit
  let afterWhole := cs.dropWhile Char.isDigit
  let (fraction, rest) :=
    match afterWhole with
    | '.' :: more => (more.takeWhile Char.isDigit, more.dropWhile Char.isDigit)
    | _ => ([], afterWhole)
  if whole = [] ∧ fraction = [] then none
  else
    let exponent :=
      match rest with
      | [] => some 0
      | c :: more => if c = 'e' ∨ c = 'E' then exponent? more else none
    exponent.map fun e => ⟨whole, fraction, e⟩

/-- The number that a numeral denotes. -/
def value (n : Numeral) : Decimal :=
  ⟨Decimal.ofDigits (n.whole ++ n.fraction), n.exponent - n.fraction.length⟩

/-- Adds digits to an integer up to the first one that a double word does not hold, and gives back
the digits that are left over. -/
def fillWord (n : Nat) : List Char → Nat × List Char
  | [] => (n, [])
  | d :: ds =>
    let more := Decimal.pushDigit n d
    if more < UInt64.size then fillWord more ds else (n, d :: ds)

/-- The number that the leading digits denote, those that fit a double word. A digit left over
before the point is a place more; a digit taken behind it is a place less. Both parts are taken in
turn, so that digits behind the point may still fit when one before it did not. -/
def leading (n : Numeral) : Decimal :=
  let (whole, skipped) := fillWord 0 n.whole
  let (coefficient, unread) := fillWord whole n.fraction
  ⟨coefficient, n.exponent + skipped.length - (n.fraction.length - unread.length : Nat)⟩

end Numeral

end Skycam
