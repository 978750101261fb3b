import Skycam.Geometry.Rotation
import Skycam.Proofs.Playback.Bounds
import Skycam.Proofs.Script.Numbers

/-!
# The arithmetic of a playback stays in range

Here a step of time runs with every division by a duration and every interpolation checked: `none`
stands for a divisor that is not finite and positive, or for a part of the way that is no number
from 0 to 1. A script that was read from a text has finite durations that are not negative, and then
the time spent in a keyframe is an amount that is less than its duration (`Playback.Timely`). So no
check fails, whatever steps of time go by, and the result is that of the step of time
(`Guarded.tick_eq`, `Playback.tick_inRange`). The sum of the steps may overflow on the way: the
keyframe is over then.
-/

namespace Skycam

open Single (IsSize IsAmount)

variable {α : Type}

/-- The point that is looked at, if it has a place. -/
def ActiveKeyframe.lookPoint (a : ActiveKeyframe α) (roster : Roster α) : Option (Vec3 α) :=
  match a.look with
  | .none => none
  | .point target => some target
  | .tracked handle => (roster.pose? handle).map (·.position)

theorem ActiveKeyframe.lookRotation_eq [Kinematics α] (a : ActiveKeyframe α) (k : Keyframe α)
    (t : α) (roster : Roster α) (pose : Pose α) :
    a.lookRotation k t roster pose =
      match (a.lookPoint roster).bind fun p => Kinematics.facing pose.position p with
      | some look => if k.lookAt.isSmooth then Kinematics.slerp a.start.rotation look t else look
      | none => pose.rotation := rfl

/-! ## Checked arithmetic -/

namespace Guarded

section

variable {β : Type} [Kinematics α]

/-- What was divided by `d`, which has to be finite and positive. -/
def ifDivisor (d : α) (x : β) : Option β :=
  if Scalar.isFinite d = true ∧ 0.0 < d then some x else none

/-- What has gone the part `t` of the way, which has to be a number from 0 to 1. -/
def ifPart (t : α) (x : β) : Option β := if 0.0 ≤ t ∧ t ≤ 1.0 then some x else none

def divide (x d : α) : Option α := ifDivisor d (x / d)

def divideVector (v : Vec3 α) (d : α) : Option (Vec3 α) := ifDivisor d (v.divide d)

def lerp (a b : Vec3 α) (t : α) : Option (Vec3 α) := ifPart t (a.lerp b t)

def slerp (a b : Quat α) (t : α) : Option (Quat α) := ifPart t (Kinematics.slerp a b t)

def mix (first last t : α) : Option α := ifPart t (first + (last - first) * t)

/-- The rotation of a body that looks at its target. -/
def lookRotation (a : ActiveKeyframe α) (k : Keyframe α) (t : α) (roster : Roster α)
    (pose : Pose α) : Option (Quat α) :=
  match (a.lookPoint roster).bind fun p => Kinematics.facing pose.position p with
  | some look => if k.lookAt.isSmooth then slerp a.start.rotation look t else some look
  | none => some pose.rotation

/-- The body when the part `t` of a keyframe is over and `dt` has gone by. -/
def moveBody (a : ActiveKeyframe α) (k : Keyframe α) (t dt : α) (roster : Roster α)
    (b : Body α) : Option (Body α) := do
  let position ←
    if k.space = .body && k.lookAt.isActive then
      (divideVector (b.pose.rotation.rotate k.position.value) k.duration).map fun velocity =>
        b.pose.position + velocity.scale dt
    else lerp a.start.position a.goal.position t
  let rotation ←
    if k.lookAt.isActive then lookRotation a k t roster ⟨position, b.pose.rotation⟩
    else slerp a.start.rotation a.goal.rotation t
  let moved : Body α := b.setPose ⟨position, rotation⟩
  match a.fovTween with
  | some (first, last) => (mix first last t).map moved.setFov
  | none => some moved

/-- The state when the body is where it has to be when the part `t` of the keyframe `k` is over. -/
def moved (s : Progress α) (k : Keyframe α) (t dt : α) (roster : Roster α) :
    Option (Progress α) :=
  match s.playback.active with
  | some a => (moveBody a k t dt roster s.body).map fun body => { s with body }
  | none => some s

/-- Lets time go by in a keyframe that takes some, and ends it when it is over. -/
def runTimed (s : Progress α) (k : Keyframe α) (dt : α) (roster : Roster α) :
    Option (Progress α) := do
  let timed := s.timed dt
  if k.isCinematic then
    let quotient ← divide timed.playback.elapsed k.duration
    let t := Scalar.clampUnit quotient
    let moved ← moved timed k t dt roster
    if 1.0 ≤ t then return (moved.advance roster).value else return moved
  else if k.duration ≤ timed.playback.elapsed then
    return (timed.delegated.advance roster).value
  else return timed.delegated

/-- Runs the current keyframe, and those after it as long as they take no time, `budget` of them
at most. -/
def run (dt : α) (roster : Roster α) : Nat → Progress α → Option (Progress α)
  | budget, s =>
    match s.playback.current? with
    | none => some s
    | some k =>
      if k.duration ≤ 0.0 then
        match budget with
        | 0 => some s
        | budget + 1 => run dt roster budget ((s.applyInstant k).advance roster).value
      else runTimed s k dt roster

/-- Lets a step of time go by. -/
def tick (p : Playback α) (dt : α) (b : Body α) (roster : Roster α) : Option (Progress α) :=
  let ready := (Progress.prepare ⟨p, b, .none⟩ roster).value
  run (Scalar.timeStep dt) roster p.script.length ready

variable {d t : α}

theorem ifDivisor_eq (hfinite : Scalar.isFinite d = true) (hpos : 0.0 < d) (x : β) :
    ifDivisor d x = some x := if_pos ⟨hfinite, hpos⟩

theorem ifPart_eq (hnonneg : 0.0 ≤ t) (hle : t ≤ 1.0) (x : β) : ifPart t x = some x :=
  if_pos ⟨hnonneg, hle⟩

/-- No check fails in turning to a point. -/
theorem lookRotation_eq (hnonneg : 0.0 ≤ t) (hle : t ≤ 1.0) (a : ActiveKeyframe α)
    (k : Keyframe α) (roster : Roster α) (pose : Pose α) :
    lookRotation a k t roster pose = some (a.lookRotation k t roster pose) := by
  rw [lookRotation, a.lookRotation_eq]
  cases (a.lookPoint roster).bind fun p => Kinematics.facing pose.position p with
  | none => rfl
  | some look =>
    dsimp only
    split
    · exact ifPart_eq hnonneg hle _
    · rfl

/-- No check fails in moving a body along a keyframe of finite and positive duration. -/
theorem moveBody_eq {k : Keyframe α} (hfinite : Scalar.isFinite k.duration = true)
    (hpos : 0.0 < k.duration) (hnonneg : 0.0 ≤ t) (hle : t ≤ 1.0) (a : ActiveKeyframe α) (dt : α)
    (roster : Roster α) (b : Body α) :
    moveBody a k t dt roster b = some (a.moveBody k t dt roster b) := by
  unfold moveBody ActiveKeyframe.moveBody divideVector lerp slerp mix
  simp only [ifDivisor_eq hfinite hpos, ifPart_eq hnonneg hle, lookRotation_eq hnonneg hle]
  cases a.fovTween with
  | none => split <;> split <;> rfl
  | some ends => split <;> split <;> rfl

theorem moved_eq {k : Keyframe α} (hfinite : Scalar.isFinite k.duration = true)
    (hpos : 0.0 < k.duration) (hnonneg : 0.0 ≤ t) (hle : t ≤ 1.0) (s : Progress α) (dt : α)
    (roster : Roster α) : moved s k t dt roster = some (s.moved k t dt roster) := by
  unfold moved Progress.moved
  cases s.playback.active with
  | none => rfl
  | some a =>
    dsimp only
    rw [moveBody_eq hfinite hpos hnonneg hle]
    rfl

end

end Guarded

/-! ## The time spent in a keyframe -/

namespace Playback

/-- The numbers of the script are sound, a playback that is playing has a current keyframe, and the
time spent in it is less than its duration unless it takes no time. -/
structure Timely (p : Playback Float32) : Prop where
  sound : p.script.Sound
  located : p.Located
  elapsed : IsAmount p.elapsed
  elapsed_lt : ∀ k, p.Plays k → 0.0 < k.duration → p.elapsed < k.duration

variable {p : Playback Float32}

/-- A keyframe that has just begun has time left. -/
theorem Timely.of_elapsed_zero (hsound : p.script.Sound) (hlocated : p.Located)
    (helapsed : p.elapsed = 0.0) : p.Timely where
  sound := hsound
  located := hlocated
  elapsed := helapsed ▸ Single.zero_isAmount
  elapsed_lt := fun _ _ hpos => helapsed ▸ hpos

end Playback

namespace Progress

variable {s : Progress Float32} {k : Keyframe Float32} {roster : Roster Float32} {dt : Float32}

/-- The time spent in a keyframe begins at zero. -/
theorem goTo_elapsed (index : Nat) :
    (s.goTo index roster).value.playback.elapsed = 0.0 ∧
      (s.goTo index roster).value.playback.script = s.playback.script := by
  unfold goTo
  split
  · exact ⟨rfl, rfl⟩
  · exact ⟨rfl, rfl⟩

theorem advance_elapsed :
    (s.advance roster).value.playback.elapsed = 0.0 ∧
      (s.advance roster).value.playback.script = s.playback.script := by
  unfold advance
  dsimp only
  split
  · exact goTo_elapsed _
  · split
    · exact goTo_elapsed 0
    · exact ⟨rfl, rfl⟩

/-- The keyframe that comes next has all its time left. -/
theorem advance_timely (hsound : s.playback.script.Sound) (hk : s.playback.Plays k) :
    (s.advance roster).value.playback.Timely := by
  obtain ⟨helapsed, hscript⟩ : _ ∧ (s.advance roster).value.playback.script = _ :=
    advance_elapsed
  refine .of_elapsed_zero ?_ (advance?_eq hk).2.located helapsed
  rw [hscript]
  exact hsound

/-- Once the time has gone by, the keyframe is over or has time left. -/
theorem advanceIf_timely (h : s.playback.Timely) (hk : s.playback.Plays k) (hdt : IsAmount dt)
    {t : Progress Float32} (ht : t.playback = (s.timed dt).playback) {isOver : Prop}
    [Decidable isOver] (hleft : ¬isOver → t.playback.elapsed < k.duration) :
    (if isOver then t.advance roster else pure t).value.playback.Timely := by
  have hplays : t.playback.Plays k := by
    rw [ht]
    exact hk
  have hsound : t.playback.script.Sound := by
    rw [ht]
    exact h.sound
  have helapsed : IsSize t.playback.elapsed := by
    rw [ht]
    exact Single.add_isSize h.elapsed.isSize hdt.isSize
  split
  · exact advance_timely hsound hplays
  · next hnot =>
    have hlt := hleft hnot
    obtain ⟨hsize, hbits⟩ := Single.isSize_of_lt helapsed hlt
    refine ⟨hsound, hplays.located, hbits.trans_le hsize, fun other hother _ => ?_⟩
    have hsame : some other = some k := hother.2.2.symm.trans hplays.2.2
    rw [Option.some.inj hsame]
    exact hlt

end Progress

namespace Guarded

variable {s : Progress Float32} {k : Keyframe Float32} {roster : Roster Float32} {dt : Float32}

/-- No check fails while time goes by in a keyframe that takes some. -/
theorem runTimed_eq (h : s.playback.Timely) (hk : s.playback.Plays k)
    (htimed : ¬k.duration ≤ 0.0) (hdt : IsAmount dt) :
    runTimed s k dt roster = some (s.runTimed k dt roster).value ∧
      (s.runTimed k dt roster).value.playback.Timely := by
  have hkeyframe : k.Sound := h.sound k (List.mem_of_getElem? hk.2.2)
  have hpos : 0.0 < k.duration := Single.pos_of_not_le hkeyframe.duration htimed
  obtain ⟨hamount, hbits⟩ := Single.isAmount_of_pos hkeyframe.duration hpos
  have helapsed : IsSize (s.timed dt).playback.elapsed :=
    Single.add_isSize h.elapsed.isSize hdt.isSize
  have hleft : ¬k.duration ≤ (s.timed dt).playback.elapsed →
      (s.timed dt).playback.elapsed < k.duration := by
    rw [hamount.isSize.le_iff helapsed, helapsed.lt_iff hamount.isSize]
    exact Nat.lt_of_not_le
  rw [Progress.runTimed_eq]
  unfold runTimed divide
  by_cases hcinematic : k.isCinematic = true
  · obtain ⟨hnonneg, hle, hover⟩ :=
      Single.clampUnit_mem (Single.size_div_isSize helapsed hamount hbits)
    simp only [hcinematic, if_true, ifDivisor_eq hkeyframe.duration hpos, Option.bind_eq_bind,
      Option.bind_some, moved_eq hkeyframe.duration hpos hnonneg hle]
    refine ⟨by split <;> rfl, Progress.advanceIf_timely h hk hdt (Progress.moved_playback _)
      fun hnot => ?_⟩
    rw [Progress.moved_playback]
    exact hleft fun hdone => hnot (hover (Single.one_le_div helapsed hamount hbits hdone))
  · simp only [hcinematic, Bool.false_eq_true, if_false]
    refine ⟨by split <;> rfl, ?_⟩
    exact Progress.advanceIf_timely (t := (s.timed dt).delegated) h hk hdt rfl hleft

/-- No check fails in a chain of keyframes that take no time, nor behind it. -/
theorem run_eq (h : s.playback.Timely) (hdt : IsAmount dt) (budget : Nat) :
    run dt roster budget s = some (s.run dt roster budget).value ∧
      (s.run dt roster budget).value.playback.Timely := by
  fun_induction run dt roster budget s with
  | case1 budget s hcurrent =>
    unfold Progress.run
    rw [hcurrent]
    exact ⟨rfl, h⟩
  | case2 s k hcurrent hinstant =>
    unfold Progress.run
    rw [hcurrent]
    dsimp only
    rw [if_pos hinstant]
    exact ⟨rfl, h⟩
  | case3 s k hcurrent hinstant budget ih =>
    unfold Progress.run
    rw [hcurrent]
    dsimp only
    rw [if_pos hinstant, Logged.value_bind]
    have hk : (s.applyInstant k).playback.Plays k := Playback.current?_eq_some_iff.mp hcurrent
    exact ih (Progress.advance_timely h.sound hk)
  | case4 budget s k hcurrent htimed =>
    unfold Progress.run
    rw [hcurrent]
    dsimp only
    rw [if_neg htimed]
    exact runTimed_eq h (Playback.current?_eq_some_iff.mp hcurrent) htimed hdt

/-- A step of time may have any length: one that cannot be used counts as none. -/
theorem timeStep_isAmount (dt : Float32) : IsAmount (Scalar.timeStep dt) := by
  unfold Scalar.timeStep
  split
  · next hfinite => exact Single.max_zero_isAmount hfinite
  · exact Single.zero_isAmount

/-- No check fails in a whole step of time. -/
theorem tick_eq {p : Playback Float32} (h : p.Timely) (dt : Float32) (b : Body Float32)
    (roster : Roster Float32) :
    tick p dt b roster = some (p.tick dt b roster).value ∧
      (p.tick dt b roster).value.playback.Timely := by
  have hready : (Progress.prepare ⟨p, b, .none⟩ roster).value.playback.Timely := by
    unfold Progress.prepare
    split
    · exact { h with }
    · exact h
  unfold tick Playback.tick
  rw [Logged.value_bind]
  exact run_eq hready (timeStep_isAmount dt) _

end Guarded

/-! ## Runs -/

namespace Playback

/-- The states into which starting the scripts of texts, stopping and steps of time take a
playback. -/
inductive FromTexts : Playback Float32 → Prop where
  | new : FromTexts new
  | start (p : Playback Float32) (text : String) (before : p.FromTexts) :
    FromTexts (p.start (Script.ofText text))
  | restart (p : Playback Float32) (before : p.FromTexts) : FromTexts p.restart
  | stop (p : Playback Float32) (before : p.FromTexts) : FromTexts p.stop
  | tick (p : Playback Float32) (dt : Float32) (b : Body Float32) (roster : Roster Float32)
    (before : p.FromTexts) : FromTexts (p.tick dt b roster).value.playback

variable {p : Playback Float32}

theorem restart_timely (h : p.script.Sound) : p.restart.Timely :=
  .of_elapsed_zero h (restart_located p) rfl

theorem start_timely {script : Script Float32} (h : script.Sound) (p : Playback Float32) :
    (p.start script).Timely := restart_timely (p := { p with script }) h

theorem stop_timely (h : p.Timely) : p.stop.Timely :=
  .of_elapsed_zero h.sound (located_of_not_playing nofun) rfl

/-- Every playback of scripts that were read from texts is timely. -/
theorem FromTexts.timely (h : p.FromTexts) : p.Timely := by
  induction h with
  | new =>
    have hempty : (Playback.new : Playback Float32).script.Sound :=
      fun _ hk => absurd hk List.not_mem_nil
    exact .of_elapsed_zero hempty (located_of_not_playing nofun) rfl
  | start p text _ _ => exact start_timely (Script.ofText_sound text) p
  | restart p _ ih => exact restart_timely ih.sound
  | stop p _ ih => exact stop_timely ih
  | tick p dt b roster _ ih => exact (Guarded.tick_eq ih dt b roster).2

/-- Every number of a script that was read from a text is finite and no duration is negative. So
while such scripts are played, whatever the steps of time are, every divisor is finite and positive,
every part of the way is a number from 0 to 1, and the time spent in the current keyframe is finite,
not negative, and less than its duration unless it takes no time. -/
theorem tick_inRange :
    (∀ text, (Script.ofText text).Sound) ∧
      ∀ p : Playback Float32, p.FromTexts → ∀ (dt : Float32) (b : Body Float32)
        (roster : Roster Float32),
        let s := (p.tick dt b roster).value
        Guarded.tick p dt b roster = some s ∧
          (s.playback.status = .playing →
            s.playback.elapsed.isFinite = true ∧ 0.0 ≤ s.playback.elapsed ∧
              ∃ k, s.playback.Plays k ∧ (0.0 < k.duration → s.playback.elapsed < k.duration)) := by
  refine ⟨Script.ofText_sound, fun p hp dt b roster => ?_⟩
  obtain ⟨heq, htimely⟩ := Guarded.tick_eq hp.timely dt b roster
  refine ⟨heq, fun hplaying => ?_⟩
  obtain ⟨k, hk⟩ := htimely.located.plays hplaying
  exact ⟨Single.isFinite_eq_true htimely.elapsed, htimely.elapsed.nonneg, k, hk,
    htimely.elapsed_lt k hk⟩

/-- Two steps of time, the sum of which is infinite. -/
theorem tick_inRange_overflow :
    let b : Body Float32 := ⟨Pose.identity, Cameras.new 60⟩
    let opened := (new.tick 1.5 b .empty).value.playback.start
      (Script.ofText "move 1 0 0\ntime 3.4e38")
    let p := (opened.tick 3e38 b .empty).value.playback
    let s := (p.tick 3e38 b .empty).value
    p.FromTexts ∧ p.elapsed = 3e38 ∧ Guarded.tick p 3e38 b .empty = some s ∧
      s.playback.status = .finished := by
  intro b opened p s
  have hstarted : (new.tick 1.5 b .empty).value.playback.FromTexts := .tick new 1.5 b .empty .new
  have hopened : opened.FromTexts := .start _ _ hstarted
  have hp : p.FromTexts := .tick opened 3e38 b .empty hopened
  obtain ⟨-, hticks⟩ := tick_inRange
  have hguarded : Guarded.tick p 3e38 b .empty = some s := (hticks p hp 3e38 b .empty).1
  have helapsed : p.elapsed = 3e38 := by decide +kernel
  have hfinished : s.playback.status = .finished := by decide +kernel
  exact ⟨hp, helapsed, hguarded, hfinished⟩

end Playback

end Skycam
