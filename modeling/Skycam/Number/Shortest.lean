import Skycam.Number.Single

/-!
# Shortest decimals

A number is written with the fewest significant digits that still denote it. For each count of
digits the two neighbours of the number on that decimal grid are tried, the nearer one first, or,
when they are equally near, the one that the format prefers; the first that reads back as the number
wins. Nine digits always suffice; should no candidate read back, all digits of the number are
written, so what is written denotes the number in any case.
-/

namespace Skycam

namespace Decimal

/-- Which of two decimals is written when a number lies halfway between them. -/
inductive Tie where
  /-- The greater one. -/
  | up
  /-- The one with an even last digit. -/
  | even
  deriving DecidableEq, Repr

/-- Whether the greater of the decimals `n` and `n + 1` is written for the number halfway. -/
def Tie.goesUp : Tie → Nat → Bool
  | up, _ => true
  | even, n => n % 2 == 1

/-- The two multiples of `10^unit` next to `num / den`, the nearer one first. -/
def neighbours (tie : Tie) (num den : Nat) (unit : Int) : List Decimal :=
  let n := num * Nat.pow 10 (-unit).toNat
  let d := den * Nat.pow 10 unit.toNat
  let below : Decimal := ⟨n / d, unit⟩
  let above : Decimal := ⟨n / d + 1, unit⟩
  if 2 * (n % d) < d ∨ (2 * (n % d) = d ∧ !tie.goesUp (n / d)) then [below, above]
  else [above, below]

/-- All decimal digits of `mantissa · 2^exponent`. -/
def ofBinary (b : Binary) : Decimal :=
  if 0 ≤ b.exponent then ⟨b.num, 0⟩
  else ⟨b.mantissa * Nat.pow 5 (-b.exponent).toNat, b.exponent⟩

/-- The first decimal that `accepts` takes among the neighbours of `b` with one digit, with two
digits and so on, and all digits of `b` when it takes none with up to `maxDigits` digits. -/
def shortest (tie : Tie) (accepts : Decimal → Bool) (maxDigits : Nat) (b : Binary) : Decimal :=
  let lead := floorLog10 b.num b.den
  let candidates :=
    (List.range maxDigits).flatMap fun (k : Nat) => neighbours tie b.num b.den (lead - k)
  (candidates.find? accepts).getD (ofBinary b)

end Decimal

namespace Single

/-- The shortest decimal that denotes the size of a number of single precision. -/
def shortest (tie : Decimal.Tie) (b : Binary) : Decimal :=
  if b.mantissa = 0 then ⟨0, 0⟩
  else Decimal.shortest tie (fun d => decide (ofDecimal d = ofBinary b)) 9 b

end Single

end Skycam
