import Skycam.Number.Scalar

/-!
# Waiting for a lost target

While a rig waits for its target, a clock says when to look at the roster: at every multiple of an
interval, and for the last time when a timeout is reached. The clock adds up the steps of time; the
error that the additions can have made is bounded by one unit in the last place of the clock for
each of them, and that much is granted, so rounding does not put a look off to the next step.
-/

namespace Skycam

/-- What is due after a step of time. -/
inductive RecoveryPoll where
  /-- Nothing. -/
  | wait
  /-- A look at the roster. -/
  | poll
  /-- The last look at the roster. -/
  | final
  deriving DecidableEq, Repr

/-- The clock of a rig that waits for its target. -/
structure RecoveryTimer (α : Type) where
  /-- The time that has gone by. -/
  clock : α
  /-- The number of steps that were added to the clock. -/
  ticks : UInt32
  /-- The number of multiples of the interval that have been looked at. -/
  polls : UInt32
  /-- The time from one look to the next. -/
  interval : α
  /-- The time of the last look. -/
  timeout : α
  deriving DecidableEq, Repr

namespace RecoveryTimer

variable {α : Type} [Scalar α]

/-- The least interval. -/
def minInterval : α := 0.001

/-- The distance from 1 to the next larger number of single precision. -/
def unitInLastPlace : α := 0.00000011920928955078125

/-- A clock that has not started. -/
def new (interval timeout : α) : RecoveryTimer α where
  clock := 0.0
  ticks := 0
  polls := 0
  interval := Scalar.max interval minInterval
  timeout := Scalar.max timeout 0.0

/-- The clock after a step of time, which counts only if it is finite and positive. -/
def add (t : RecoveryTimer α) (dt : α) : RecoveryTimer α :=
  if Scalar.isFinite dt ∧ 0.0 < dt then { t with clock := t.clock + dt, ticks := t.ticks + 1 }
  else t

/-- The time that is granted for the rounding of the clock. -/
def slack (t : RecoveryTimer α) : α := Scalar.ofUInt32 t.ticks * unitInLastPlace * t.clock

/-- The time that counts: the clock and what is granted. -/
def now (t : RecoveryTimer α) : α := t.clock + t.slack

/-- The number of multiples of the interval that have been reached. -/
def due (t : RecoveryTimer α) : UInt32 := Scalar.toUInt32 (t.now / t.interval)

/-- What is due at the present time. Several multiples that came due at once share one look. -/
def check (t : RecoveryTimer α) : RecoveryPoll × RecoveryTimer α :=
  if t.timeout ≤ t.now then (.final, { t with polls := t.polls + 1 })
  else if t.polls < t.due then (.poll, { t with polls := t.due })
  else (.wait, t)

/-- Lets time go by and says what is due. -/
def advance (t : RecoveryTimer α) (dt : α) : RecoveryPoll × RecoveryTimer α := (t.add dt).check

end RecoveryTimer

end Skycam
