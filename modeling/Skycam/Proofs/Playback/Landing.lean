import Skycam.Proofs.Playback.Count
import Skycam.Proofs.Playback.Exact

/-!
# Where a script lands

A keyframe is run in one of two ways: without a duration it is applied at once, and with one the
body goes to a goal that was computed when the keyframe became current. Both end in the same place
(`Keyframe.land`), as long as the arithmetic does not round there. So a script without look-ats and
follow modes takes the body to where its keyframes land one after the other, however time is cut
into steps (`Playback.drive_lands`).

The invariant of a run is `Playback.Flies`: the current keyframe was set up where its predecessors
have landed. Of a keyframe that takes no time it says in addition that the body was not moved since,
for such a keyframe can be set up in one step of time and applied in the next one.
-/

namespace Skycam

variable {α : Type}

/-! ## Bodies up to the sign of their rotation -/

/-- The quaternions are the same rotation. -/
def Quat.SameTurn [Kinematics α] (p q : Quat α) : Prop := p = q ∨ p = -q

/-- The bodies are in the same place, turned the same way, and have the same cameras. -/
structure Body.Alike [Kinematics α] (b c : Body α) : Prop where
  position : b.pose.position = c.pose.position
  rotation : b.pose.rotation.SameTurn c.pose.rotation
  cameras : b.cameras = c.cameras

theorem Body.Alike.refl [Kinematics α] (b : Body α) : b.Alike b := ⟨rfl, Or.inl rfl, rfl⟩

section Alike

variable [Kinematics α] [Exact α] {p q r : Quat α} {b c d : Body α}

theorem Quat.SameTurn.symm (h : p.SameTurn q) : q.SameTurn p := by
  rcases h with rfl | rfl
  · exact Or.inl rfl
  · exact Or.inr (Exact.neg_neg q).symm

theorem Quat.SameTurn.trans (h : p.SameTurn q) (h' : q.SameTurn r) : p.SameTurn r := by
  rcases h with rfl | rfl
  · exact h'
  · rcases h' with rfl | rfl
    · exact Or.inr rfl
    · exact Or.inl (Exact.neg_neg r)

theorem Body.Alike.symm (h : b.Alike c) : c.Alike b :=
  ⟨h.position.symm, h.rotation.symm, h.cameras.symm⟩

theorem Body.Alike.trans (h : b.Alike c) (h' : c.Alike d) : b.Alike d :=
  ⟨h.position.trans h'.position, h.rotation.trans h'.rotation, h.cameras.trans h'.cameras⟩

end Alike

/-! ## Landing -/

/-- The cameras of a body once a keyframe is over. -/
def Keyframe.landCameras (k : Keyframe α) (b : Body α) : Cameras α :=
  match k.fov with
  | some change => { (k.project b).cameras with fov := change.value }
  | none => (k.project b).cameras

/-- The body once a keyframe is over, however long it took. -/
def Keyframe.land [Kinematics α] (k : Keyframe α) (b : Body α) : Body α :=
  ⟨k.goal b.pose, k.landCameras b⟩

/-- The body once some keyframes are over. -/
def landAll [Kinematics α] (ks : List (Keyframe α)) (b : Body α) : Body α :=
  ks.foldl (fun b k => k.land b) b

/-- The same keyframe, applied at once. -/
def Keyframe.instant [Scalar α] (k : Keyframe α) : Keyframe α := { k with duration := 0.0 }

/-- The same script, without any durations. -/
def Script.instant [Scalar α] (s : Script α) : Script α :=
  { s with keyframes := s.keyframes.map Keyframe.instant }

/-- A script that ends, looks at nothing and hands the body to no follow mode. -/
structure Script.IsPlain (s : Script α) : Prop where
  once : s.looping = false
  noLook : ∀ k ∈ s.keyframes, k.lookAt = .none
  noFollow : ∀ k ∈ s.keyframes, k.follow = none

theorem Script.IsPlain.instant [Scalar α] {s : Script α} (h : s.IsPlain) : s.instant.IsPlain := by
  refine ⟨h.once, fun k hk => ?_, fun k hk => ?_⟩
  · obtain ⟨timed, htimed, rfl⟩ := List.mem_map.mp hk
    exact h.noLook timed htimed
  · obtain ⟨timed, htimed, rfl⟩ := List.mem_map.mp hk
    exact h.noFollow timed htimed

theorem landAll_instant [Kinematics α] (s : Script α) (b : Body α) :
    landAll s.instant.keyframes b = landAll s.keyframes b := by
  unfold landAll Script.instant
  rw [List.foldl_map]
  rfl

theorem landAll_take_succ [Kinematics α] {ks : List (Keyframe α)} {i : Nat} {k : Keyframe α}
    (hk : ks[i]? = some k) (b : Body α) :
    landAll (ks.take (i + 1)) b = k.land (landAll (ks.take i) b) := by
  simp [landAll, List.take_add_one, hk]

section Land

variable [Kinematics α] [Exact α] {k : Keyframe α} {b c : Body α}

/-- Bodies that are alike are sent to the same place. -/
theorem Keyframe.goal_position_congr (h : b.Alike c) :
    (k.goal b.pose).position = (k.goal c.pose).position := by
  have hrotate : ∀ v, b.pose.rotation.rotate v = c.pose.rotation.rotate v := by
    intro v
    rcases h.rotation with heq | hneg
    · rw [heq]
    · rw [hneg, Exact.neg_rotate]
  unfold Keyframe.goal
  cases k.position with
  | absolute v => rfl
  | relative v => cases k.space <;> simp [Pose.transformPoint, h.position, hrotate]

/-- Bodies that are alike are turned the same way. -/
theorem Keyframe.goal_rotation_congr (h : b.Alike c) :
    (k.goal b.pose).rotation.SameTurn (k.goal c.pose).rotation := by
  unfold Keyframe.goal
  cases k.rotation with
  | absolute v => exact Or.inl rfl
  | relative v =>
    dsimp only
    rcases h.rotation with heq | hneg
    · exact Or.inl (by rw [heq])
    · exact Or.inr (by rw [hneg, Exact.neg_mul])

/-- Bodies that are alike land alike. -/
theorem Body.Alike.land (h : b.Alike c) (k : Keyframe α) : (k.land b).Alike (k.land c) where
  position := Keyframe.goal_position_congr h
  rotation := Keyframe.goal_rotation_congr h
  cameras := by
    have hproject : (k.project b).cameras = (k.project c).cameras := by
      unfold Keyframe.project
      cases k.projection <;> simp [Body.setOrthographic, h.cameras]
    show k.landCameras b = k.landCameras c
    unfold Keyframe.landCameras
    rw [hproject]

end Land

/-! ## A keyframe on its way -/

/-- What was found out about a keyframe that became current while a body was at `start`. -/
def Keyframe.plan [Kinematics α] (k : Keyframe α) (start : Body α) : ActiveKeyframe α where
  start := start.pose
  goal := k.goal start.pose
  fovTween := (k.openFov (k.project start)).2
  look := .none

/-- The cameras once the change of the field of view is complete. -/
def ActiveKeyframe.lastCameras (a : ActiveKeyframe α) (c : Cameras α) : Cameras α :=
  match a.fovTween with
  | some (_, last) => { c with fov := last }
  | none => c

/-- The playback has not yet set up the first keyframe of the script. -/
structure Playback.Opens (script : Script α) (p : Playback α) : Prop where
  isScript : p.script = script
  isPlaying : p.status = .playing
  isFirst : p.index = 0
  isFresh : p.active = none
  inRange : 0 < script.length

/-- The keyframe `k` of the script is current. It was set up with the body at `start`, where the
keyframes before it have taken the body `b`, and has brought it to `body`. -/
structure Playback.Carries [Kinematics α] (script : Script α) (b : Body α) (p : Playback α)
    (body start : Body α) (k : Keyframe α) : Prop where
  isScript : p.script = script
  plays : p.Plays k
  landed : start.Alike (landAll (script.keyframes.take p.index) b)
  planned : p.active = some (k.plan start)
  cameras : (k.plan start).lastCameras body.cameras = k.landCameras start
  unmoved : k.duration ≤ 0.0 → body.pose = start.pose

/-- The playback of the script, which began with the body `b`, has brought it to `body`. -/
inductive Playback.Flies [Kinematics α] (script : Script α) (b : Body α) (p : Playback α)
    (body : Body α) : Prop where
  /-- A keyframe is current. -/
  | under (start : Body α) (k : Keyframe α) (carries : p.Carries script b body start k)
  /-- All keyframes have landed. -/
  | ended (isScript : p.script = script) (isFinished : p.status = .finished)
      (landed : body.Alike (landAll script.keyframes b))

/-- A playback with a current keyframe carries the body along it. -/
theorem Playback.Flies.carries [Kinematics α] {script : Script α} {p : Playback α}
    {b body : Body α} {k : Keyframe α} (h : p.Flies script b body) (plays : p.Plays k) :
    ∃ start, p.Carries script b body start k := by
  cases h with
  | under start k' hcarries =>
    obtain rfl : k' = k := Option.some.inj (hcarries.plays.2.2.symm.trans plays.2.2)
    exact ⟨start, hcarries⟩
  | ended _ isFinished _ =>
    rw [plays.1] at isFinished
    cases isFinished

theorem Playback.Carries.keyframe [Kinematics α] {script : Script α} {p : Playback α}
    {b body start : Body α} {k : Keyframe α} (h : p.Carries script b body start k) :
    script.keyframes[p.index]? = some k := by
  rw [← h.isScript]
  exact h.plays.2.2

section Steps

variable [Kinematics α] {script : Script α} {b start : Body α} {k : Keyframe α}
  {s : Progress α} {roster : Roster α}

/-- Opening a keyframe sets the cameras as they will be at its end, but for a field of view that
takes the duration of the keyframe. -/
theorem Keyframe.lastCameras_openFov (k : Keyframe α) (start : Body α) :
    (k.plan start).lastCameras (k.openFov (k.project start)).1.cameras = k.landCameras start := by
  unfold Keyframe.plan ActiveKeyframe.lastCameras Keyframe.landCameras Keyframe.openFov
  cases k.fov with
  | none => rfl
  | some change =>
    by_cases hslow : (!change.immediate && decide (0.0 < k.duration)) = true
    · simp [hslow]
    · simp [hslow, Body.setFov]

/-- Opening a keyframe does not move the body. -/
theorem Keyframe.openFov_pose (k : Keyframe α) (start : Body α) :
    (k.openFov (k.project start)).1.pose = start.pose := by
  have hproject : (k.project start).pose = start.pose := by
    unfold Keyframe.project
    cases k.projection <;> rfl
  rw [← hproject]
  unfold Keyframe.openFov
  cases k.fov with
  | none => rfl
  | some change =>
    dsimp only
    split <;> rfl

/-- On its way a keyframe touches no more of the cameras than the field of view it is to reach. -/
theorem ActiveKeyframe.lastCameras_moveBody (a : ActiveKeyframe α) (k : Keyframe α) (t dt : α)
    (roster : Roster α) (body : Body α) :
    a.lastCameras (a.moveBody k t dt roster body).cameras = a.lastCameras body.cameras := by
  unfold ActiveKeyframe.moveBody ActiveKeyframe.lastCameras
  cases a.fovTween <;> rfl

/-- A keyframe that looks at nothing goes straight to its goal. -/
theorem ActiveKeyframe.moveBody_pose (noLook : k.lookAt = .none) (a : ActiveKeyframe α) (t dt : α)
    (roster : Roster α) (body : Body α) : (a.moveBody k t dt roster body).pose =
      ⟨a.start.position.lerp a.goal.position t,
        Kinematics.slerp a.start.rotation a.goal.rotation t⟩ := by
  unfold ActiveKeyframe.moveBody
  cases a.fovTween <;> simp [noLook, LookAt.isActive, Body.setPose, Body.setFov]

/-- At the end the change of the field of view is complete. -/
theorem ActiveKeyframe.moveBody_one_cameras [Exact α] (a : ActiveKeyframe α) (dt : α)
    (body : Body α) :
    (a.moveBody k 1.0 dt roster body).cameras = a.lastCameras body.cameras := by
  unfold ActiveKeyframe.moveBody ActiveKeyframe.lastCameras
  cases a.fovTween with
  | none => rfl
  | some ends =>
    obtain ⟨first, last⟩ := ends
    have hfov : first + (last - first) * 1.0 = last := Exact.tween_one first last
    simp [Body.setFov, Body.setPose, hfov]

/-- A keyframe that has gone all the way has landed. -/
theorem ActiveKeyframe.moveBody_one [Exact α] (noLook : k.lookAt = .none) {body : Body α}
    (hcameras : (k.plan start).lastCameras body.cameras = k.landCameras start) (dt : α)
    (roster : Roster α) :
    ((k.plan start).moveBody k 1.0 dt roster body).Alike (k.land start) := by
  have hpose := moveBody_pose noLook (k.plan start) 1.0 dt roster body
  refine ⟨?_, ?_, ?_⟩
  · rw [hpose]
    exact Vec3.lerp_one _ _
  · rw [hpose]
    exact Exact.slerp_one _ _
  · rw [moveBody_one_cameras, hcameras]
    rfl

/-- A keyframe that takes no time has landed once it was applied. -/
theorem Progress.applyInstant_land [Scalar.Ordered α] (atOnce : k.duration ≤ 0.0)
    (hcameras : (k.plan start).lastCameras s.body.cameras = k.landCameras start)
    (hpose : s.body.pose = start.pose) : (s.applyInstant k).body = k.land start := by
  have htween : (k.plan start).fovTween = none := by
    have hduration : ¬0.0 < k.duration := Scalar.Ordered.not_pos_of_le_zero _ atOnce
    unfold Keyframe.plan Keyframe.openFov
    cases k.fov <;> simp [hduration]
  unfold ActiveKeyframe.lastCameras at hcameras
  rw [htween] at hcameras
  show (⟨k.goal s.body.pose, s.body.cameras⟩ : Body α) = ⟨k.goal start.pose, k.landCameras start⟩
  rw [hpose, ← hcameras]

/-- A part of a keyframe that is cut to the range up to 1 and reaches 1 is 1. -/
theorem Scalar.clampUnit_eq_one [Scalar.Ordered α] {x : α} (h : 1.0 ≤ Scalar.clampUnit x) :
    Scalar.clampUnit x = 1.0 := by
  unfold Scalar.clampUnit at h ⊢
  by_cases hneg : x < 0.0
  · rw [if_pos hneg] at h
    exact absurd h Scalar.Ordered.not_one_le_zero
  · rw [if_neg hneg] at h ⊢
    by_cases hone : 1.0 ≤ x
    · rw [if_pos hone]
    · rw [if_neg hone] at h
      exact absurd h hone

/-- A keyframe is set up where those before it have landed. -/
theorem Progress.setUp_flies (hscript : s.playback.script = script) (plays : s.playback.Plays k)
    (noLook : k.lookAt = .none)
    (landed : s.body.Alike (landAll (script.keyframes.take s.playback.index) b)) :
    Playback.Flies script b (s.setUp k roster).value.playback (s.setUp k roster).value.body := by
  have hlook : (k.lookTarget roster).value = .none := by simp [Keyframe.lookTarget, noLook]
  have hplan : (s.setUp k roster).value.playback.active = some (k.plan s.body) := by
    simp [Progress.setUp, Keyframe.plan, hlook]
  have hbody : (s.setUp k roster).value.body = (k.openFov (k.project s.body)).1 := rfl
  rw [hbody]
  exact .under s.body k
    { isScript := hscript
      plays
      landed
      planned := hplan
      cameras := k.lastCameras_openFov s.body
      unmoved := fun _ => k.openFov_pose s.body }

/-- Where the current keyframe has landed the next one is set up, or the script is over. -/
theorem Progress.advance_flies (isPlain : script.IsPlain) (hscript : s.playback.script = script)
    (plays : s.playback.Plays k)
    (landed : s.body.Alike (landAll (script.keyframes.take (s.playback.index + 1)) b)) :
    Playback.Flies script b (s.advance roster).value.playback (s.advance roster).value.body := by
  obtain ⟨hplaying, hrange, -⟩ := plays
  rw [hscript] at hrange
  unfold Progress.advance
  dsimp only
  rw [hscript, isPlain.once]
  by_cases hnext : s.playback.index + 1 < script.length
  · obtain ⟨next, hkeyframe⟩ : ∃ next, script.keyframes[s.playback.index + 1]? = some next :=
      ⟨_, List.getElem?_eq_getElem hnext⟩
    have noLook : next.lookAt = .none := isPlain.noLook next (List.mem_of_getElem? hkeyframe)
    rw [if_pos hnext]
    unfold Progress.goTo
    dsimp only
    rw [hscript, hkeyframe]
    exact setUp_flies rfl ⟨hplaying, hnext, hkeyframe⟩ noLook landed
  · have hall : script.keyframes.take (s.playback.index + 1) = script.keyframes :=
      List.take_of_length_le (Nat.le_of_not_lt hnext)
    rw [if_neg hnext, if_neg Bool.false_ne_true]
    rw [hall] at landed
    exact .ended rfl rfl landed

variable [Scalar.Ordered α] [Exact α] {dt : α}

/-- A keyframe that takes time carries the body on, and lands it when it is over. -/
theorem Progress.runTimed_flies (isPlain : script.IsPlain)
    (h : Playback.Flies script b s.playback s.body) (plays : s.playback.Plays k)
    (takesTime : ¬k.duration ≤ 0.0) :
    Playback.Flies script b (s.runTimed k dt roster).value.playback
      (s.runTimed k dt roster).value.body := by
  obtain ⟨start, hcarries⟩ := h.carries plays
  have hmem : k ∈ script.keyframes := List.mem_of_getElem? hcarries.keyframe
  have hcinematic : k.isCinematic = true := by
    simp [Keyframe.isCinematic, isPlain.noFollow k hmem]
  unfold Progress.runTimed
  dsimp only
  rw [if_pos hcinematic, hcarries.planned]
  by_cases hover : 1.0 ≤ Scalar.clampUnit ((s.playback.elapsed + dt) / k.duration)
  · have hlanded := ActiveKeyframe.moveBody_one (isPlain.noLook k hmem) hcarries.cameras dt roster
    rw [if_pos hover, Scalar.clampUnit_eq_one hover]
    refine advance_flies isPlain hcarries.isScript plays ?_
    rw [landAll_take_succ hcarries.keyframe]
    exact hlanded.trans (hcarries.landed.land k)
  · have hcameras := ActiveKeyframe.lastCameras_moveBody (k.plan start) k
      (Scalar.clampUnit ((s.playback.elapsed + dt) / k.duration)) dt roster s.body
    rw [if_neg hover]
    exact .under start k
      { isScript := hcarries.isScript
        plays
        landed := hcarries.landed
        planned := rfl
        cameras := hcameras.trans hcarries.cameras
        unmoved := fun atOnce => absurd atOnce takesTime }

/-- A keyframe that takes no time lands the body at once. -/
theorem Progress.applyInstant_flies (isPlain : script.IsPlain)
    (h : Playback.Flies script b s.playback s.body) (plays : s.playback.Plays k)
    (atOnce : k.duration ≤ 0.0) :
    Playback.Flies script b ((s.applyInstant k).advance roster).value.playback
      ((s.applyInstant k).advance roster).value.body := by
  obtain ⟨start, hcarries⟩ := h.carries plays
  refine advance_flies isPlain hcarries.isScript plays ?_
  rw [applyInstant_land atOnce hcarries.cameras (hcarries.unmoved atOnce)]
  show (k.land start).Alike (landAll (script.keyframes.take (s.playback.index + 1)) b)
  rw [landAll_take_succ hcarries.keyframe]
  exact hcarries.landed.land k

/-- A chain of keyframes that take no time lands the body one by one. -/
theorem Progress.run_flies (isPlain : script.IsPlain) (budget : Nat)
    (h : Playback.Flies script b s.playback s.body) :
    Playback.Flies script b (s.run dt roster budget).value.playback
      (s.run dt roster budget).value.body := by
  induction budget generalizing s with
  | zero =>
    unfold Progress.run
    split
    · exact h
    · next k hk =>
      split
      · exact h
      · next takesTime =>
        exact runTimed_flies isPlain h (Playback.current?_eq_some_iff.mp hk) takesTime
  | succ budget ih =>
    unfold Progress.run
    split
    · exact h
    · next k hk =>
      have plays := Playback.current?_eq_some_iff.mp hk
      split
      · next atOnce => exact ih (applyInstant_flies isPlain h plays atOnce)
      · next takesTime => exact runTimed_flies isPlain h plays takesTime

end Steps

/-! ## Whole runs -/

namespace Playback

/-- The first keyframe of the script is current before it is set up. -/
theorem Opens.exists_plays {script : Script α} {p : Playback α} (h : p.Opens script) :
    ∃ k, p.Plays k ∧ script.keyframes[0]? = some k := by
  obtain ⟨k, hfirst⟩ : ∃ k, script.keyframes[0]? = some k :=
    ⟨_, List.getElem?_eq_getElem h.inRange⟩
  refine ⟨k, ⟨h.isPlaying, ?_, ?_⟩, hfirst⟩
  · rw [h.isFirst, h.isScript]
    exact h.inRange
  · rw [h.isFirst, h.isScript]
    exact hfirst

variable [Kinematics α] {script : Script α} {p : Playback α} {b body : Body α}

/-- Lets steps of time go by, each with the roster of its moment. Nothing else touches the body. -/
def drive (p : Playback α) (b : Body α) : List (α × Roster α) → Playback α × Body α
  | [] => (p, b)
  | (dt, roster) :: steps =>
    let s := (p.tick dt b roster).value
    s.playback.drive s.body steps

/-- Time does not move what is not playing. -/
theorem drive_of_not_playing (h : p.status ≠ .playing) (b : Body α)
    (steps : List (α × Roster α)) : p.drive b steps = (p, b) := by
  induction steps with
  | nil => rfl
  | cons step steps ih =>
    unfold drive
    rw [tick_value_of_not_playing h]
    exact ih

theorem start_status (p : Playback α) (script : Script α) :
    (p.start script).status = if script.isEmpty then .idle else .playing := rfl

/-- A script that is started is about to set up its first keyframe. -/
theorem start_opens (p : Playback α) (h : script.isEmpty = false) :
    (p.start script).Opens script where
  isScript := rfl
  isPlaying := by simp [start_status, h]
  isFirst := rfl
  isFresh := rfl
  inRange := by simpa [Script.isEmpty, Script.length, List.length_pos_iff] using h

/-- The first step of time begins by setting up the first keyframe. -/
theorem Opens.tick_value {k : Keyframe α} (h : p.Opens script) (hplays : p.Plays k) (dt : α)
    (b : Body α) (roster : Roster α) : (p.tick dt b roster).value =
      ((Progress.setUp ⟨p, b, .none⟩ k roster).value.run (Scalar.timeStep dt) roster
        p.script.length).value := by
  have hready : Progress.prepare ⟨p, b, .none⟩ roster = Progress.setUp ⟨p, b, .none⟩ k roster := by
    unfold Progress.prepare
    rw [h.isFresh, current?_eq_some_iff.mpr hplays]
  unfold tick
  rw [Logged.value_bind, hready]

/-- A script without keyframes does not come to its end. -/
theorem isEmpty_of_drive_finished {steps : List (α × Roster α)}
    (isFinished : ((p.start script).drive b steps).1.status = .finished) :
    script.isEmpty = false := by
  cases hempty : script.isEmpty with
  | false => rfl
  | true =>
    have hidle : (p.start script).status = .idle := by simp [start_status, hempty]
    rw [drive_of_not_playing (by simp [hidle]), hidle] at isFinished
    cases isFinished

variable [Scalar.Ordered α] [Exact α]

/-- The first step of time sets the first keyframe up where the body is. -/
theorem Opens.tick_flies (h : p.Opens script) (isPlain : script.IsPlain) (dt : α) (b : Body α)
    (roster : Roster α) : Flies script b (p.tick dt b roster).value.playback
      (p.tick dt b roster).value.body := by
  obtain ⟨k, hplays, hfirst⟩ := h.exists_plays
  have hnone : landAll (script.keyframes.take p.index) b = b := by
    rw [h.isFirst]
    rfl
  rw [h.tick_value hplays]
  refine Progress.run_flies isPlain _ (Progress.setUp_flies h.isScript hplays ?_ ?_)
  · exact isPlain.noLook k (List.mem_of_getElem? hfirst)
  · rw [hnone]
    exact .refl b

/-- A step of time carries the body on. -/
theorem Flies.tick (h : p.Flies script b body) (isPlain : script.IsPlain) (dt : α)
    (roster : Roster α) : Flies script b (p.tick dt body roster).value.playback
      (p.tick dt body roster).value.body := by
  cases h with
  | ended isScript isFinished landed =>
    rw [tick_value_of_not_playing (by simp [isFinished])]
    exact .ended isScript isFinished landed
  | under start k hcarries =>
    have hready : (Progress.prepare ⟨p, body, .none⟩ roster) = pure ⟨p, body, .none⟩ := by
      unfold Progress.prepare
      rw [hcarries.planned]
    unfold Playback.tick
    rw [Logged.value_bind, hready]
    exact Progress.run_flies isPlain _ (.under start k hcarries)

theorem Flies.drive (h : p.Flies script b body) (isPlain : script.IsPlain)
    (steps : List (α × Roster α)) :
    Flies script b (p.drive body steps).1 (p.drive body steps).2 := by
  induction steps generalizing p body with
  | nil => exact h
  | cons step steps ih => exact ih (h.tick isPlain step.1 step.2)

/-- A script that was played to its end has taken the body to where its keyframes land. -/
theorem drive_alike_landAll (isPlain : script.IsPlain) (p : Playback α) (b : Body α)
    (steps : List (α × Roster α))
    (isFinished : ((p.start script).drive b steps).1.status = .finished) :
    ((p.start script).drive b steps).2.Alike (landAll script.keyframes b) := by
  have hflies : Flies script b ((p.start script).drive b steps).1
      ((p.start script).drive b steps).2 := by
    have hopens := p.start_opens (isEmpty_of_drive_finished isFinished)
    cases steps with
    | nil =>
      rw [drive, hopens.isPlaying] at isFinished
      cases isFinished
    | cons step steps => exact (hopens.tick_flies isPlain step.1 b step.2).drive isPlain steps
  cases hflies with
  | under start k hcarries =>
    rw [hcarries.plays.1] at isFinished
    cases isFinished
  | ended _ _ landed => exact landed

end Playback

/-! ## A script without durations -/

section AtOnce

variable [Kinematics α] {k : Keyframe α} {s : Progress α} {dt : α} {roster : Roster α}

/-- Keyframes that take no time are over in one step of time if it may apply them all. -/
theorem Progress.run_finishes (isOnce : s.playback.script.looping = false)
    (atOnce : ∀ k ∈ s.playback.script.keyframes, k.duration ≤ 0.0) (plays : s.playback.Plays k)
    {budget : Nat} (hbudget : s.playback.script.length ≤ s.playback.index + budget) :
    (s.run dt roster budget).value.playback.status = .finished := by
  induction budget generalizing s k with
  | zero =>
    have hrange := plays.2.1
    omega
  | succ budget ih =>
    have hatOnce : k.duration ≤ 0.0 := atOnce k (List.mem_of_getElem? plays.2.2)
    unfold Progress.run
    rw [Playback.current?_eq_some_iff.mpr plays]
    dsimp only
    rw [if_pos hatOnce, Logged.value_bind]
    have hscript : (s.applyInstant k).playback = s.playback := rfl
    unfold Progress.advance
    dsimp only
    rw [hscript, isOnce]
    by_cases hnext : s.playback.index + 1 < s.playback.script.length
    · obtain ⟨next, hkeyframe⟩ :
          ∃ next, s.playback.script.keyframes[s.playback.index + 1]? = some next :=
        ⟨_, List.getElem?_eq_getElem hnext⟩
      rw [if_pos hnext]
      unfold Progress.goTo
      dsimp only
      rw [hscript, hkeyframe]
      refine ih isOnce atOnce ⟨plays.1, hnext, hkeyframe⟩ ?_
      show s.playback.script.length ≤ s.playback.index + 1 + budget
      omega
    · rw [if_neg hnext, if_neg Bool.false_ne_true]
      rw [Logged.value_pure, Progress.run_value_of_not_playing (by simp)]

end AtOnce

namespace Playback

variable [Kinematics α] [Scalar.Ordered α] {script : Script α}

/-- Without durations a script is over after one step of time. -/
theorem instant_tick_finished (isOnce : script.looping = false) (h : script.isEmpty = false)
    (p : Playback α) (dt : α) (b : Body α) (roster : Roster α) :
    ((p.start script.instant).tick dt b roster).value.playback.status = .finished := by
  have hempty : script.instant.isEmpty = false := by
    simpa [Script.instant, Script.isEmpty] using h
  have hopens := p.start_opens hempty
  obtain ⟨k, hplays, hfirst⟩ := hopens.exists_plays
  rw [hopens.tick_value hplays]
  refine Progress.run_finishes isOnce (fun k hk => ?_) hplays (Nat.le_add_left _ _)
  obtain ⟨timed, -, rfl⟩ := List.mem_map.mp hk
  exact Scalar.Ordered.zero_le_zero

/-- However time is cut into steps, a script that looks at nothing and hands its body to no follow
mode ends where it ends when none of its keyframes takes any time. -/
theorem drive_lands [Exact α] (isPlain : script.IsPlain) (p : Playback α) (b : Body α)
    (steps : List (α × Roster α))
    (isFinished : ((p.start script).drive b steps).1.status = .finished) :
    (∀ (q : Playback α) (dt : α) (roster : Roster α),
      let atOnce := ((q.start script.instant).tick dt b roster).value
      atOnce.playback.status = .finished ∧
        ((p.start script).drive b steps).2.Alike atOnce.body) ∧
    (∀ (q : Playback α) (others : List (α × Roster α)),
      ((q.start script).drive b others).1.status = .finished →
        ((p.start script).drive b steps).2.Alike ((q.start script).drive b others).2) := by
  have hlanded := drive_alike_landAll isPlain p b steps isFinished
  refine ⟨fun q dt roster => ?_, fun q others hothers => ?_⟩
  · have hempty := isEmpty_of_drive_finished isFinished
    have hfinished := instant_tick_finished isPlain.once hempty q dt b roster
    have hinstant : ((q.start script.instant).tick dt b roster).value.body.Alike
        (landAll script.instant.keyframes b) :=
      drive_alike_landAll isPlain.instant q b [(dt, roster)] hfinished
    rw [landAll_instant] at hinstant
    exact ⟨hfinished, hlanded.trans hinstant.symm⟩
  · exact hlanded.trans (drive_alike_landAll isPlain q b others hothers).symm

/-- A rise along the axes of the world with a narrower field of view, a half turn about the upward
axis, and a jump ahead along the axes of the camera, which then looks back. -/
def turnAndLeap : Script Rat where
  keyframes :=
    [{ Keyframe.still with
        position := .relative ⟨0, 10, 0⟩
        duration := 1
        fov := some ⟨30, false⟩ },
      { Keyframe.still with rotation := .relative ⟨0, 180, 0⟩, duration := 2 },
      { Keyframe.still with
        position := .relative ⟨0, 0, 5⟩
        space := .body
        projection := some .orthographic }]
  looping := false

/-- A body at the origin. -/
def restingBody : Body Rat := ⟨Pose.identity, Cameras.new 60⟩

/-- Some steps of time, two of them longer than what is left of the keyframe. -/
def unevenSteps : List (Rat × Roster Rat) :=
  [1 / 4, 1 / 2, 1, 3, 0].map fun dt => (dt, Roster.empty)

/-- A script that moves, turns and leaps while its view narrows, in steps of uneven length. -/
theorem drive_lands_turnAndLeap :
    turnAndLeap.IsPlain ∧
    ((new.start turnAndLeap).drive restingBody unevenSteps).1.status = .finished ∧
    (∀ (q : Playback Rat) (dt : Rat) (roster : Roster Rat),
      let atOnce := ((q.start turnAndLeap.instant).tick dt restingBody roster).value
      atOnce.playback.status = .finished ∧
        ((new.start turnAndLeap).drive restingBody unevenSteps).2.Alike atOnce.body) ∧
    (∀ (q : Playback Rat) (others : List (Rat × Roster Rat)),
      ((q.start turnAndLeap).drive restingBody others).1.status = .finished →
        ((new.start turnAndLeap).drive restingBody unevenSteps).2.Alike
          ((q.start turnAndLeap).drive restingBody others).2) := by
  have isPlain : turnAndLeap.IsPlain := ⟨rfl, by decide +kernel, by decide +kernel⟩
  have isFinished :
      ((new.start turnAndLeap).drive restingBody unevenSteps).1.status = .finished := by
    decide +kernel
  exact ⟨isPlain, isFinished, drive_lands isPlain new restingBody unevenSteps isFinished⟩

end Playback

end Skycam
