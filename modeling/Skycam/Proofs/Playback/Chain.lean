import Skycam.Proofs.Playback.Bounds
import Skycam.Proofs.Playback.Landing

/-!
# What one step of time does

A step of time applies the keyframes without a duration that come next, each to the pose that the
one before it has left, and then advances the first keyframe that takes time. The chain of the
former is cut at the end of a script that does not loop and after one round of one that does, so
the number of keyframes bounds it (`Playback.tick_chain`).

The induction is on the keyframes of the chain. What it carries is `Progress.Enters`: the keyframe
of the next number has become current where those before it have left the body, or there is none.
-/

namespace Skycam

variable {α : Type}

/-! ## The keyframes ahead -/

namespace Script

/-- The keyframes from the index `i` on, once around if the script loops. -/
def onward (s : Script α) (i : Nat) : List (Keyframe α) :=
  s.keyframes.drop i ++ if s.looping then s.keyframes.take i else []

/-- The keyframes from the index `i` on up to the first one that is not applied at once. -/
def chain [Scalar α] (s : Script α) (i : Nat) : List (Keyframe α) :=
  (s.onward i).takeWhile fun k => k.duration ≤ 0.0

variable {s : Script α} {i : Nat}

/-- The keyframes of `ks` are those of the numbers from `n` on, counted through all rounds. -/
structure Ahead (s : Script α) (n : Nat) (ks : List (Keyframe α)) : Prop where
  numbered : ∀ j < ks.length, s.keyframes[(n + j) % s.length]? = ks[j]?
  inFirstRound : s.looping = false → n + ks.length ≤ s.length

theorem Ahead.head {n : Nat} {k : Keyframe α} {rest : List (Keyframe α)}
    (h : s.Ahead n (k :: rest)) : s.keyframes[n % s.length]? = some k := by
  have hfirst := h.numbered 0 (Nat.zero_lt_succ _)
  rwa [Nat.add_zero] at hfirst

/-- Behind it lies what is ahead from the next number on. -/
theorem Ahead.tail {n : Nat} {k : Keyframe α} {rest : List (Keyframe α)}
    (h : s.Ahead n (k :: rest)) : s.Ahead (n + 1) rest where
  numbered j hj := by
    have hnext := h.numbered (j + 1) (Nat.succ_lt_succ hj)
    rwa [List.getElem?_cons_succ, ← Nat.add_assoc, Nat.add_right_comm] at hnext
  inFirstRound honce := by
    have hround := h.inFirstRound honce
    rw [List.length_cons] at hround
    omega

variable [Scalar α]

end Script

/-! ## Keyframes that become current -/

namespace Keyframe

variable [Kinematics α]

/-- The body when the keyframe has become current. -/
def enter (k : Keyframe α) (b : Body α) : Body α := (k.openFov (k.project b)).1

/-- What is found out about the keyframe when it becomes current. -/
def begun (k : Keyframe α) (b : Body α) (roster : Roster α) : ActiveKeyframe α where
  start := b.pose
  goal := k.goal b.pose
  fovTween := (k.openFov (k.project b)).2
  look := (k.lookTarget roster).value

/-- The body when the keyframe has been applied at once. -/
def apply (k : Keyframe α) (b : Body α) : Body α := b.setPose (k.goal b.pose)

/-- The body when the keyframe has become current and has been applied at once. -/
def pass (k : Keyframe α) (b : Body α) : Body α := k.apply (k.enter b)

/-- Whether the keyframe, which takes time, is over when so much of it has gone by. -/
def Over (k : Keyframe α) (elapsed : α) : Prop :=
  if k.isCinematic then 1.0 ≤ Scalar.clampUnit (elapsed / k.duration) else k.duration ≤ elapsed

instance (k : Keyframe α) (elapsed : α) : Decidable (k.Over elapsed) :=
  inferInstanceAs (Decidable (ite _ _ _))

/-- The body when the last `dt` of the time `elapsed` has gone by in the keyframe. A keyframe that
belongs to a follow mode leaves it alone. -/
def carry (k : Keyframe α) (a : ActiveKeyframe α) (elapsed dt : α) (roster : Roster α)
    (b : Body α) : Body α :=
  if k.isCinematic then a.moveBody k (Scalar.clampUnit (elapsed / k.duration)) dt roster b else b

end Keyframe

namespace Progress

variable [Kinematics α] {script : Script α} {roster : Roster α} {n : Nat} {b : Body α}
  {s : Progress α} {k : Keyframe α}

/-- The keyframes of the numbers below `n`, counted from 0 through all rounds of the script, have
left the body at `b`: the one of number `n` has become current there, or there is none. -/
inductive Enters (script : Script α) (roster : Roster α) (n : Nat) (b : Body α)
    (s : Progress α) : Prop where
  /-- The keyframe `k` has become current. -/
  | current (k : Keyframe α) (isNext : script.keyframes[n % script.length]? = some k)
      (inFirstRound : script.looping = false → n < script.length)
      (playback : s.playback =
        ⟨script, n % script.length, 0.0, .playing, some (k.begun b roster)⟩)
      (body : s.body = k.enter b)
  /-- The script is over. -/
  | ended (isOnce : script.looping = false) (isLast : n = script.length)
      (playback : s.playback = ⟨script, script.length, 0.0, .finished, none⟩)
      (body : s.body = b) (isFinished : s.step.finished = true)

/-- From `s` to `t` at most `count` keyframes are reported, and no handover to a follow mode. -/
def Adds (count : Nat) (s t : Progress α) : Prop :=
  t.step.delegated = s.step.delegated ∧
    t.step.started.length ≤ s.step.started.length + count

/-- The state when a step of time has gone by in the keyframe `k`, whether or not it is over. -/
def gone (s : Progress α) (k : Keyframe α) (a : ActiveKeyframe α) (dt : α) (roster : Roster α) :
    Progress α where
  playback := { s.playback with elapsed := s.playback.elapsed + dt }
  body := k.carry a (s.playback.elapsed + dt) dt roster s.body
  step := if k.isCinematic then s.step else { s.step with delegated := true }

end Progress

/-! ## The whole step of time -/

namespace Playback

/-- The states into which starting, stopping and steps of time take a playback. -/
inductive Reachable [Kinematics α] : Playback α → Prop where
  | new : Reachable new
  | start (p : Playback α) (script : Script α) (before : p.Reachable) : Reachable (p.start script)
  | restart (p : Playback α) (before : p.Reachable) : Reachable p.restart
  | stop (p : Playback α) (before : p.Reachable) : Reachable p.stop
  | tick (p : Playback α) (dt : α) (b : Body α) (roster : Roster α) (before : p.Reachable) :
    Reachable (p.tick dt b roster).value.playback

variable [Kinematics α] {p : Playback α}

/-- Whatever calls have led to it, a playback that is playing has a current keyframe. -/
theorem Reachable.located (h : p.Reachable) : p.Located := by
  induction h with
  | new => exact located_of_not_playing nofun
  | start p script _ _ => exact restart_located { p with script }
  | restart p _ _ => exact restart_located p
  | stop p _ _ => exact located_of_not_playing nofun
  | tick p dt b roster _ ih => exact (tick?_eq ih dt b roster).2

/-- The keyframes that the next step of time applies at once. -/
def chain (p : Playback α) : List (Keyframe α) := p.script.chain p.index

/-- Where the chain leaves the body. The first keyframe may have become current before. -/
def landed (p : Playback α) (b : Body α) : Body α :=
  match p.chain with
  | [] => b
  | k :: rest =>
    rest.foldl (fun b k => k.pass b) (k.apply (if p.active.isSome then b else k.enter b))

/-- What was found out about the keyframe `k` behind the chain. -/
def plan (p : Playback α) (k : Keyframe α) (b : Body α) (roster : Roster α) : ActiveKeyframe α :=
  match p.active, p.chain with
  | some a, [] => a
  | _, _ => k.begun (p.landed b) roster

/-- The body when the keyframe `k` behind the chain is current. -/
def ready (p : Playback α) (k : Keyframe α) (b : Body α) : Body α :=
  match p.active, p.chain with
  | some _, [] => b
  | _, _ => k.enter (p.landed b)

/-- The time spent in the keyframe behind the chain when a step of time has gone by. -/
def spent (p : Playback α) (dt : α) : α :=
  (if p.chain.isEmpty then p.elapsed else 0.0) + Scalar.timeStep dt

/-- The body when the step of time has gone by in the keyframe `k` behind the chain. -/
def advanced (p : Playback α) (k : Keyframe α) (dt : α) (b : Body α) (roster : Roster α) :
    Body α :=
  k.carry (p.plan k b roster) (p.spent dt) (Scalar.timeStep dt) roster (p.ready k b)

/-- What a step of time makes of a playback and a body. -/
inductive Steps (p : Playback α) (dt : α) (b : Body α) (roster : Roster α) (s : Progress α) :
    Prop where
  /-- Behind the chain there is the keyframe `k`, which takes time. It alone is advanced, and the
  next one becomes current when it is over. -/
  | timed (k : Keyframe α) (isNext : (p.script.onward p.index)[p.chain.length]? = some k)
      (index : p.script.keyframes[(p.index + p.chain.length) % p.script.length]? = some k)
      (takesTime : ¬k.duration ≤ 0.0)
      (delegated : s.step.delegated = !k.isCinematic)
      (stays : ¬k.Over (p.spent dt) →
        s.playback = ⟨p.script, (p.index + p.chain.length) % p.script.length, p.spent dt, .playing,
          some (p.plan k b roster)⟩ ∧ s.body = p.advanced k dt b roster)
      (goesOn : k.Over (p.spent dt) → s.Enters p.script roster (p.index + p.chain.length + 1)
        (p.advanced k dt b roster))
  /-- The chain reaches the end of a script that does not loop. -/
  | ended (isAll : p.chain = p.script.onward p.index) (isOnce : p.script.looping = false)
      (playback : s.playback = ⟨p.script, p.script.length, 0.0, .finished, none⟩)
      (body : s.body = p.landed b) (isFinished : s.step.finished = true)
  /-- All keyframes of a script that loops are applied at once, and each was applied. -/
  | around (k : Keyframe α)
      (isAll : p.chain = p.script.keyframes.drop p.index ++ p.script.keyframes.take p.index)
      (loops : p.script.looping = true) (isFirst : p.script.keyframes[p.index]? = some k)
      (playback : s.playback =
        ⟨p.script, p.index, 0.0, .playing, some (k.begun (p.landed b) roster)⟩)
      (body : s.body = k.enter (p.landed b))

section Step

variable {k : Keyframe α} {dt : α} {b : Body α} {roster : Roster α} {s : Progress α}

end Step

/-- A jump to a point, a rise that takes a second, and a step ahead along the axes of the camera,
over and over. -/
def hops : Script Rat where
  keyframes :=
    [{ Keyframe.still with position := .absolute ⟨7, 0, 0⟩, rotation := .relative ⟨0, 180, 0⟩ },
      { Keyframe.still with position := .relative ⟨0, 10, 0⟩, duration := 1 },
      { Keyframe.still with position := .relative ⟨0, 0, 5⟩, space := .body }]
  looping := true

end Playback

end Skycam
