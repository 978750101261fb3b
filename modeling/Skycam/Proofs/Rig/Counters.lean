import Skycam.Proofs.Playback.Bounds
import Skycam.Proofs.Rig.Phases

/-!
# The counters of a rig

A step of time counts in two places: the clock of a rig that waits for its target counts the steps
that were added to it, and it counts the looks at the roster. Here a counter that is full cannot be
counted up, and playback reads its keyframes by their index (`Rig.tick?`). The steps stay few as
long as there are few steps; the looks can be as many as a counter holds after a single long step,
and then the last look cannot be counted any more. That apart, a step of time goes through as it is
(`Rig.tick?_eq`).
-/

namespace Skycam

/-- A counter when it is counted up, unless it is full. -/
def countUp? (n : UInt32) : Option UInt32 :=
  if n.toNat + 1 < UInt32.size then some (n + 1) else none

theorem countUp?_eq_some {n : UInt32} (h : n.toNat + 1 < UInt32.size) : countUp? n = some (n + 1) :=
  if_pos h

theorem countUp?_eq_none {n : UInt32} (h : n.toNat + 1 = UInt32.size) : countUp? n = none :=
  if_neg (by omega)

theorem toNat_add_one_le (n : UInt32) : (n + 1).toNat ≤ n.toNat + 1 := by
  rw [UInt32.toNat_add]
  exact Nat.mod_le _ _

namespace RecoveryTimer

variable {α : Type} [Scalar α]

/-- The clock after a step of time. -/
def add? (t : RecoveryTimer α) (dt : α) : Option (RecoveryTimer α) :=
  if Scalar.isFinite dt ∧ 0.0 < dt then do
    let ticks ← countUp? t.ticks
    return { t with clock := t.clock + dt, ticks }
  else some t

/-- What is due at the present time. -/
def check? (t : RecoveryTimer α) : Option (RecoveryPoll × RecoveryTimer α) :=
  if t.timeout ≤ t.now then do
    let polls ← countUp? t.polls
    return (.final, { t with polls })
  else if t.polls < t.due then some (.poll, { t with polls := t.due })
  else some (.wait, t)

/-- Lets time go by and says what is due. -/
def advance? (t : RecoveryTimer α) (dt : α) : Option (RecoveryPoll × RecoveryTimer α) := do
  let added ← t.add? dt
  added.check?

/-- The last look is due, and the counter of the looks is full. -/
def Full (t : RecoveryTimer α) (dt : α) : Prop :=
  (t.advance dt).1 = .final ∧ t.polls.toNat + 1 = UInt32.size

variable {t : RecoveryTimer α} {dt : α}

theorem add_polls : (t.add dt).polls = t.polls := by
  unfold add
  split <;> rfl

theorem add_ticks_le : (t.add dt).ticks.toNat ≤ t.ticks.toNat + 1 := by
  unfold add
  split
  · exact toNat_add_one_le t.ticks
  · exact Nat.le_succ _

theorem check_ticks : t.check.2.ticks = t.ticks := by
  unfold check
  split
  · rfl
  · split <;> rfl

/-- A step of time is counted once at most. -/
theorem advance_ticks_le : (t.advance dt).2.ticks.toNat ≤ t.ticks.toNat + 1 := by
  unfold advance
  rw [check_ticks]
  exact add_ticks_le

/-- A step of time can be counted unless the counter of the steps is full. -/
theorem add?_eq (h : t.ticks.toNat + 1 < UInt32.size) : t.add? dt = some (t.add dt) := by
  unfold add? add
  rw [countUp?_eq_some h]
  split <;> rfl

/-- The last look cannot be counted when the counter of the looks is full. -/
theorem check?_eq : t.check? =
    if t.check.1 = .final ∧ t.polls.toNat + 1 = UInt32.size then none else some t.check := by
  have hlt : t.polls.toNat < UInt32.size := t.polls.toNat_lt_size
  unfold check? check
  by_cases htimeout : t.timeout ≤ t.now
  · rw [if_pos htimeout, if_pos htimeout]
    by_cases hfull : t.polls.toNat + 1 = UInt32.size
    · rw [countUp?_eq_none hfull, if_pos ⟨rfl, hfull⟩]
      rfl
    · rw [countUp?_eq_some (by omega), if_neg fun hfinal => hfull hfinal.2]
      rfl
  · rw [if_neg htimeout, if_neg htimeout]
    split <;> simp

/-- As long as the steps can be counted, only the last look can be one too many. -/
theorem advance?_eq (h : t.ticks.toNat + 1 < UInt32.size) :
    (t.Full dt → t.advance? dt = none) ∧ (¬t.Full dt → t.advance? dt = some (t.advance dt)) := by
  have hadvance : t.advance? dt = (t.add dt).check? := by simp [advance?, add?_eq h]
  rw [hadvance, check?_eq, add_polls]
  exact ⟨fun hfull => if_pos hfull, fun hfull => if_neg hfull⟩

end RecoveryTimer

namespace Rig

/-- Waits for a lost target for a step of time. -/
def pollRecovery? (config : Config) (r : Rig) (dt : Float32) (roster : Roster Float32) :
    Option (Rig × Option DestroyReason) :=
  match r.target with
  | .recovering _ timer => do
    let _ ← timer.advance? dt
    return (r.pollRecovery config dt roster).value
  | _ => some (r.pollRecovery config dt roster).value

/-- Lets a step of time go by. -/
def tick? (config : Config) (r : Rig) (dt : Float32) (roster : Roster Float32) :
    Option (Rig × Option DestroyReason) := do
  match ← r.pollRecovery? config dt roster with
  | (waiting, some reason) => return (waiting, some reason)
  | (ready, none) =>
    let progress ← ready.playback.tick? dt ready.body roster
    let played := ready.afterPlayback config progress
    return ((played.runFollow config dt roster).value, none)

/-- The rig waits for its target, the last look is due, and the counter of the looks is full. -/
def LooksTooOften (dt : Float32) (r : Rig) : Prop :=
  ∃ username timer, r.target = .recovering username timer ∧ timer.Full dt

/-- The playback has a current keyframe if it is playing, and the clock of the wait has counted at
most `n` steps. -/
structure InBounds (n : Nat) (r : Rig) : Prop where
  /-- The current keyframe is there. -/
  located : r.playback.Located
  /-- The steps are few. -/
  ticks : ∀ username timer, r.target = .recovering username timer → timer.ticks.toNat ≤ n

variable {config : Config} {r ready : Rig} {n : Nat} {dt : Float32} {roster : Roster Float32}

theorem Polled.playback (h : r.Polled config dt roster ready) : ready.playback = r.playback := by
  cases h <;> rfl

/-- The look for a lost target fails just if it is the last one and cannot be counted. -/
theorem pollRecovery?_eq (h : r.InBounds n) (hn : n + 1 < UInt32.size) :
    (r.LooksTooOften dt → r.pollRecovery? config dt roster = none) ∧
      (¬r.LooksTooOften dt →
        r.pollRecovery? config dt roster = some (r.pollRecovery config dt roster).value) := by
  unfold pollRecovery? LooksTooOften
  cases htarget : r.target with
  | unbound | bound => simp
  | recovering username timer =>
    have hticks : timer.ticks.toNat ≤ n := h.ticks username timer htarget
    obtain ⟨hfull, hfits⟩ : (timer.Full dt → timer.advance? dt = none) ∧ _ :=
      RecoveryTimer.advance?_eq (by omega)
    constructor
    · rintro ⟨_, _, ⟨⟩, htoo⟩
      simp [hfull htoo]
    · intro hnot
      have hok : ¬timer.Full dt := fun htoo => hnot ⟨username, timer, rfl, htoo⟩
      simp [hfits hok]

/-- A step of time reads no keyframe that is not there, and each counter can be counted up, unless
the counter of the looks is full at the last look. -/
theorem tick?_eq (h : r.InBounds n) (hn : n + 1 < UInt32.size) :
    (r.LooksTooOften dt → r.tick? config dt roster = none) ∧
      (¬r.LooksTooOften dt → r.tick? config dt roster = some (r.tick config dt roster).value) := by
  obtain ⟨htoo, hok⟩ : (r.LooksTooOften dt → r.pollRecovery? config dt roster = none) ∧ _ :=
    pollRecovery?_eq h hn
  refine ⟨fun hlooks => by simp [tick?, htoo hlooks], fun hlooks => ?_⟩
  cases hpoll : (r.pollRecovery config dt roster).value with
  | mk ready reason =>
    have hread : r.pollRecovery? config dt roster = some (ready, reason) := by
      rw [hok hlooks, hpoll]
    cases reason with
    | some reason => simp [tick?, hread, tick_value_of_poll_some hpoll]
    | none =>
      have hlocated : ready.playback.Located := by
        rw [(pollRecovery_polled hpoll).playback]
        exact h.located
      obtain ⟨hplay, -⟩ := Playback.tick?_eq hlocated dt ready.body roster
      simp [tick?, hread, tick_value_of_poll_none hpoll, hplay, runPlayback]

end Rig

end Skycam
