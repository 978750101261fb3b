import Skycam.Proofs.Fleet.Run
import Skycam.Proofs.Playback.Exact
import Skycam.Proofs.Rig.Phases

/-!
# Steps of time that are none

A step of time that is negative, infinite or no number counts as none for the recovery clock and for
playback. The mode smooth multiplies with it all the same. So such a step does to a rig what a step
of no time does unless the mode smooth is to move it (`Fleet.update_badStep`); that rig is put where
the product leads, and loses its target when the step is not finite.
-/

namespace Skycam

/-- The step of time is negative, infinite or no number. -/
def BadStep (dt : Float32) : Prop := dt.isFinite = false ∨ dt < 0.0

/-! ## Arithmetic with what is not finite -/

namespace Single

open Float.Model

/-- What is not finite is not finite in bits either. -/
theorem isFinite_pack {u : UnpackedFloat} (h : u.isFinite = false) :
    (Float32.Model.pack u).isFinite = false := by
  cases u with
  | notANumber => decide +kernel
  | infinity sign => cases sign <;> decide +kernel
  | zero sign => cases h
  | finite sign mantissa exponent hpos => cases h

/-- A number that is not finite is no number or infinite. -/
theorem unpack_of_not_finite {x : Float32} (h : x.isFinite = false) :
    x.toModel.unpack = .notANumber ∨ ∃ sign, x.toModel.unpack = .infinity sign := by
  have hx : x.toModel.unpack.isFinite = false := h
  cases hunpacked : x.toModel.unpack with
  | notANumber => exact .inl rfl
  | infinity sign => exact .inr ⟨sign, rfl⟩
  | zero sign =>
    rw [hunpacked] at hx
    cases hx
  | finite sign mantissa exponent hpos =>
    rw [hunpacked] at hx
    cases hx

/-- A product with a factor that is not finite is not finite. -/
theorem isFinite_mul {x y : Float32} (h : y.isFinite = false) : (x * y).isFinite = false := by
  refine isFinite_pack (u := UnpackedFloat.mul Format.binary32 x.toModel.unpack y.toModel.unpack) ?_
  rcases unpack_of_not_finite h with hy | ⟨sign, hy⟩
  · rw [hy]
    cases x.toModel.unpack <;> rfl
  · rw [hy]
    cases x.toModel.unpack <;> rfl

/-- A sum with a part that is not finite is not finite. -/
theorem isFinite_add {x y : Float32} (h : y.isFinite = false) : (x + y).isFinite = false := by
  refine isFinite_pack (u := UnpackedFloat.add Format.binary32 x.toModel.unpack y.toModel.unpack) ?_
  rcases unpack_of_not_finite h with hy | ⟨sign, hy⟩
  · rw [hy]
    cases x.toModel.unpack <;> rfl
  · rw [hy]
    cases x.toModel.unpack with
    | infinity other =>
      -- Infinities of different sign have no sum, others keep the sign.
      unfold UnpackedFloat.add
      dsimp only
      split <;> rfl
    | notANumber | zero | finite => rfl

theorem le_zero_of_neg {x : Float32} (h : x < 0.0) : x ≤ 0.0 := by
  have hlt : x.toModel.unpack.lt (0.0 : Float32).toModel.unpack = true := of_decide_eq_true h
  have hle : x.toModel.unpack.le (0.0 : Float32).toModel.unpack = true := by
    unfold UnpackedFloat.lt at hlt
    unfold UnpackedFloat.le
    rw [beq_iff_eq.mp hlt]
    rfl
  exact decide_eq_true hle

end Single

/-! ## What counts a bad step as none -/

variable {dt : Float32}

theorem BadStep.not_counted (h : BadStep dt) : ¬(Scalar.isFinite dt ∧ (0.0 : Float32) < dt) := by
  rintro ⟨hfinite, hpos⟩
  have hfinite : dt.isFinite = true := hfinite
  rcases h with hinfinite | hneg
  · rw [hinfinite] at hfinite
    cases hfinite
  · exact Scalar.Ordered.not_pos_of_le_zero dt (Single.le_zero_of_neg hneg) hpos

/-- A bad step counts as no time at all where steps are cut to what makes sense. -/
theorem BadStep.timeStep (h : BadStep dt) :
    Scalar.timeStep dt = Scalar.timeStep (0.0 : Float32) := by
  have hzero : Scalar.timeStep (0.0 : Float32) = 0.0 := by decide +kernel
  rw [hzero]
  unfold Scalar.timeStep
  rcases h with hinfinite | hneg
  · have hfalse : Scalar.isFinite dt = false := hinfinite
    rw [hfalse]
    rfl
  · have hle : dt ≤ 0.0 := Single.le_zero_of_neg hneg
    unfold Scalar.max
    rw [if_pos hle, ite_self, ite_self]

theorem RecoveryTimer.advance_of_badStep (h : BadStep dt) (t : RecoveryTimer Float32) :
    t.advance dt = t.advance 0.0 := by
  have hnone : ¬(Scalar.isFinite (0.0 : Float32) ∧ (0.0 : Float32) < 0.0) := by decide +kernel
  unfold advance add
  rw [if_neg h.not_counted, if_neg hnone]

theorem Playback.tick_of_badStep (h : BadStep dt) (p : Playback Float32) (b : Body Float32)
    (roster : Roster Float32) : p.tick dt b roster = p.tick 0.0 b roster := by
  unfold tick
  rw [h.timeStep]

/-- Only the mode smooth looks at the step of time. -/
theorem FollowTuning.nextPose_eq (t : FollowTuning) {mode : FollowMode} (h : mode ≠ .smooth)
    (target current : Pose Float32) (dt dt' : Float32) :
    t.nextPose mode target current dt = t.nextPose mode target current dt' := by
  cases mode with
  | smooth => exact absurd rfl h
  | strict | locked | bumper | first => rfl

/-- With a step that is not finite the mode smooth leads nowhere. -/
theorem FollowTuning.nextPose_not_finite (t : FollowTuning) (target current : Pose Float32)
    (h : dt.isFinite = false) : (t.nextPose .smooth target current dt).isFinite = false := by
  have hx : (t.nextPose .smooth target current dt).position.x.isFinite = false :=
    Single.isFinite_add (Single.isFinite_mul (Single.isFinite_mul h))
  have hfalse : Scalar.isFinite (t.nextPose .smooth target current dt).position.x = false := hx
  unfold Pose.isFinite Vec3.isFinite
  rw [hfalse]
  rfl

namespace Rig

variable {config : Config} {r sought : Rig} {roster : Roster Float32} {goal : Pose Float32}

/-- The look for a lost target does not notice a bad step. -/
theorem pollRecovery_of_badStep (h : BadStep dt) (config : Config) (r : Rig)
    (roster : Roster Float32) :
    r.pollRecovery config dt roster = r.pollRecovery config 0.0 roster := by
  unfold pollRecovery
  split
  · next username timer _ => rw [RecoveryTimer.advance_of_badStep h timer]
  · rfl

theorem runPlayback_of_badStep (h : BadStep dt) (config : Config) (r : Rig)
    (roster : Roster Float32) :
    r.runPlayback config dt roster = r.runPlayback config 0.0 roster := by
  unfold runPlayback
  rw [Playback.tick_of_badStep h]

/-- The rig as it is when, in a step of no time, its follow mode is to move it, if that is so. -/
def beforeFollow? (config : Config) (roster : Roster Float32) (r : Rig) : Option Rig :=
  match (r.pollRecovery config 0.0 roster).value with
  | (_, some _) => none
  | (ready, none) =>
    let played := (ready.runPlayback config 0.0 roster).value
    if played.control = .follow then some (played.seekTarget config roster).value else none

/-- The rig follows a target at the finite pose `goal` with the mode smooth. -/
structure Chases (roster : Roster Float32) (r : Rig) (goal : Pose Float32) : Prop where
  isSmooth : r.mode = .smooth
  isBound : ∃ username handle isLocal,
    r.target = .bound username handle isLocal ∧ roster.pose? handle = some goal
  isFinite : goal.isFinite = true

/-- The mode smooth is to move the rig, which is then `sought`, toward a target at `goal`. -/
structure Eases (config : Config) (roster : Roster Float32) (r sought : Rig)
    (goal : Pose Float32) : Prop where
  isSought : r.beforeFollow? config roster = some sought
  chases : sought.Chases roster goal

/-- The rig when the mode smooth has moved it toward `goal`, or has lost the target over it. -/
def eased (config : Config) (r : Rig) (goal : Pose Float32) (dt : Float32) : Rig :=
  let next := config.tuning.nextPose .smooth goal r.body.pose dt
  if next.isFinite then { r with body := r.body.setPose next }
  else (r.beginRecovery config .notFinite).value

/-- A rig that was to be eased by a step that is not finite loses its target. -/
theorem eased_of_not_finite (h : dt.isFinite = false) (config : Config) (r : Rig)
    (goal : Pose Float32) :
    r.eased config goal dt = (r.beginRecovery config .notFinite).value := by
  unfold eased
  dsimp only
  rw [FollowTuning.nextPose_not_finite _ _ _ h]
  rfl

/-- A rig that eases after nothing is moved by its follow mode in the same way, however long the
step is. -/
theorem followTarget_eq (h : ∀ goal, ¬r.Chases roster goal) (dt dt' : Float32) :
    r.followTarget config dt roster = r.followTarget config dt' roster := by
  unfold followTarget
  split
  · next username handle isLocal htarget =>
    have hsame : config.tuning.follow r.mode username (roster.pose? handle) r.body.pose dt =
        config.tuning.follow r.mode username (roster.pose? handle) r.body.pose dt' := by
      cases hpose : roster.pose? handle with
      | none => rfl
      | some goal =>
        unfold FollowTuning.follow
        by_cases hsmooth : r.mode = .smooth
        · have hgoal : goal.isFinite = false := Bool.eq_false_iff.mpr fun hfinite =>
            h goal ⟨hsmooth, ⟨username, handle, isLocal, htarget, hpose⟩, hfinite⟩
          simp only [hgoal, Bool.false_and, Bool.false_eq_true, if_false]
        · simp only [config.tuning.nextPose_eq hsmooth goal r.body.pose dt dt']
    rw [hsame]
  · rfl

/-- What follows the target depends on the step of time only where the mode smooth moves the rig. -/
theorem runFollow_eq
    (h : r.control = .follow → ∀ goal, ¬(r.seekTarget config roster).value.Chases roster goal)
    (dt dt' : Float32) : r.runFollow config dt roster = r.runFollow config dt' roster := by
  unfold runFollow
  by_cases hcontrol : r.control = .follow
  · rw [if_pos hcontrol, if_pos hcontrol]
    exact Logged.bind_congr_value _ (followTarget_eq (h hcontrol) dt dt')
  · rw [if_neg hcontrol, if_neg hcontrol]

/-- A rig that eases after its target goes where the step takes it, or loses the target. -/
theorem Chases.followTarget_value (h : r.Chases roster goal) (config : Config) (dt : Float32) :
    (r.followTarget config dt roster).value = r.eased config goal dt := by
  obtain ⟨username, handle, isLocal, htarget, hpose⟩ := h.isBound
  let next := config.tuning.nextPose .smooth goal r.body.pose dt
  have hfollow : config.tuning.follow r.mode username (roster.pose? handle)
      r.body.pose dt = if next.isFinite then .ok next else .error .notFinite := by
    rw [h.isSmooth, hpose]
    unfold FollowTuning.follow
    simp only [h.isFinite, Bool.true_and]
    rfl
  unfold followTarget eased
  split
  · next username' handle' isLocal' htarget' =>
    rw [htarget] at htarget'
    cases htarget'
    rw [hfollow]
    by_cases hfinite : next.isFinite = true
    · rw [if_pos hfinite, if_pos hfinite]
      rfl
    · rw [if_neg hfinite, if_neg hfinite]
  · next hnot => exact absurd htarget (hnot username handle isLocal)

/-- A step that is not finite makes the rig lose its target. -/
theorem Chases.eased_of_not_finite (h : r.Chases roster goal) (hdt : dt.isFinite = false)
    (config : Config) :
    r.eased config goal dt = (r.beginRecovery config .notFinite).value ∧
      (r.eased config goal dt).target.isRecovering = true := by
  have heased := Rig.eased_of_not_finite hdt config r goal
  obtain ⟨username, handle, isLocal, htarget, -⟩ := h.isBound
  have hname : r.targetName? = some username := by rw [targetName?, htarget, Target.username?]
  refine ⟨heased, ?_⟩
  rw [heased, beginRecovery, hname]
  rfl

/-- A tick in which the step of time is seen by what follows the target only. -/
def tickFollowing (config : Config) (r : Rig) (dt : Float32) (roster : Roster Float32) :
    Logged (Rig × Option DestroyReason) := do
  match ← r.pollRecovery config 0.0 roster with
  | (waiting, some reason) => return (waiting, some reason)
  | (ready, none) =>
    let played ← ready.runPlayback config 0.0 roster
    let followed ← played.runFollow config dt roster
    return (followed, none)

/-- With a bad step all but the follow mode does what it does without time. -/
theorem tick_eq_tickFollowing (h : BadStep dt) (config : Config) (r : Rig)
    (roster : Roster Float32) :
    r.tick config dt roster = r.tickFollowing config dt roster := by
  unfold tick tickFollowing
  rw [pollRecovery_of_badStep h]
  refine Logged.bind_congr_value _ ?_
  cases (r.pollRecovery config 0.0 roster).value with
  | mk ready reason =>
    cases reason with
    | some reason => rfl
    | none =>
      show (ready.runPlayback config dt roster >>= _) = (ready.runPlayback config 0.0 roster >>= _)
      rw [runPlayback_of_badStep h]

/-- A rig that eases after nothing does not notice a bad step at all. -/
theorem tick_of_badStep (h : BadStep dt)
    (hfree : ∀ sought goal, ¬r.Eases config roster sought goal) :
    r.tick config dt roster = r.tick config 0.0 roster := by
  rw [tick_eq_tickFollowing h]
  -- Both sides now poll and play alike, and what follows the target is all that may differ.
  refine Logged.bind_congr_value _ ?_
  cases hpoll : (r.pollRecovery config 0.0 roster).value with
  | mk ready reason =>
    cases reason with
    | some reason => rfl
    | none =>
      refine Logged.bind_congr_value _ ?_
      let played := (ready.runPlayback config 0.0 roster).value
      have hfollow : played.runFollow config dt roster = played.runFollow config 0.0 roster := by
        refine runFollow_eq (fun hcontrol goal hchases => ?_) dt 0.0
        have hsought : r.beforeFollow? config roster =
            some (played.seekTarget config roster).value := by
          unfold beforeFollow?
          rw [hpoll]
          exact if_pos hcontrol
        exact hfree _ goal ⟨hsought, hchases⟩
      show (played.runFollow config dt roster >>= _) = (played.runFollow config 0.0 roster >>= _)
      rw [hfollow]

/-- What a rig is before its follow mode moves it decides the rest of the step. -/
theorem tickFollowing_value (hsought : r.beforeFollow? config roster = some sought)
    (dt : Float32) : (r.tickFollowing config dt roster).value =
      ((sought.followTarget config dt roster).value, none) := by
  unfold beforeFollow? at hsought
  unfold tickFollowing
  rw [Logged.value_bind]
  cases hpoll : (r.pollRecovery config 0.0 roster).value with
  | mk ready reason =>
    rw [hpoll] at hsought
    cases reason with
    | some reason => cases hsought
    | none =>
      let played := (ready.runPlayback config 0.0 roster).value
      have hsome : (if played.control = .follow then some (played.seekTarget config roster).value
          else none) = some sought := hsought
      by_cases hcontrol : played.control = .follow
      · rw [if_pos hcontrol] at hsome
        have hfollow : (played.runFollow config dt roster).value =
            (sought.followTarget config dt roster).value := by
          unfold runFollow
          rw [if_pos hcontrol, Logged.value_bind, Option.some.inj hsome]
        rw [← hfollow]
        rfl
      · rw [if_neg hcontrol] at hsome
        cases hsome

/-- Where a bad step, and where a step of no time leads a rig that the mode smooth is to move. -/
theorem Eases.tick_value (h : Eases config roster r sought goal) (hdt : BadStep dt) :
    (r.tick config dt roster).value = (sought.eased config goal dt, none) ∧
      (r.tick config 0.0 roster).value = (sought.eased config goal 0.0, none) := by
  constructor
  · rw [tick_eq_tickFollowing hdt, tickFollowing_value h.isSought, h.chases.followTarget_value]
  · rw [← h.chases.followTarget_value]
    exact tickFollowing_value h.isSought 0.0

end Rig

namespace Fleet

/-- A step of time that is negative, infinite or no number does to each rig what a step of no time
does, unless the mode smooth is to move it toward a target. That rig stays open and is put where the
mode leads with this step, and a step that is not finite makes it lose its target. -/
theorem update_badStep (f : Fleet) (dt : Float32) (hdt : BadStep dt) (roster : Roster Float32) :
    (∀ r ∈ f.rigs, (∀ sought goal, ¬r.Eases f.config roster sought goal) →
      r.tick f.config dt roster = r.tick f.config 0.0 roster) ∧
    (∀ r ∈ f.rigs, ∀ sought goal, r.Eases f.config roster sought goal →
      (r.tick f.config dt roster).value = (sought.eased f.config goal dt, none) ∧
      (r.tick f.config 0.0 roster).value = (sought.eased f.config goal 0.0, none) ∧
      (dt.isFinite = false →
        sought.eased f.config goal dt = (sought.beginRecovery f.config .notFinite).value ∧
        (sought.eased f.config goal dt).target.isRecovering = true)) ∧
    ((∀ r ∈ f.rigs, ∀ sought goal, ¬r.Eases f.config roster sought goal) →
      f.update dt roster = f.update 0.0 roster) := by
  have hfree : ∀ r ∈ f.rigs, (∀ sought goal, ¬r.Eases f.config roster sought goal) →
      r.tick f.config dt roster = r.tick f.config 0.0 roster :=
    fun r _ hr => Rig.tick_of_badStep hdt hr
  refine ⟨hfree, fun r _ sought goal heases => ?_, fun hall => ?_⟩
  · obtain ⟨hbad, hzero⟩ := heases.tick_value hdt
    exact ⟨hbad, hzero, fun hinfinite => heases.chases.eased_of_not_finite hinfinite f.config⟩
  · have hticked : (Logged.each f.rigs fun rig => rig.tick f.config dt roster) =
        Logged.each f.rigs fun rig => rig.tick f.config 0.0 roster := by
      have hsame : ∀ r ∈ f.rigs, r.tick f.config dt roster = r.tick f.config 0.0 roster :=
        fun r hr => hfree r hr (hall r hr)
      unfold Logged.each
      rw [List.map_congr_left fun r hr => congrArg Logged.value (hsame r hr),
        List.flatMap_congr fun r hr => congrArg Logged.notes (hsame r hr)]
    unfold update
    rw [hticked]

/-- A fleet with one rig, which follows the only player with the mode smooth. -/
def easing : Fleet := (new .standard).run [(.create ⟨"cam"⟩ .follow, .lone "racer")]

/-- A rig that eases after its target, with a step that is not a number. -/
theorem update_badStep_easing :
    BadStep Single.nan ∧
    (∀ r ∈ easing.rigs,
      (∀ sought goal, ¬r.Eases easing.config (.lone "racer") sought goal) →
        r.tick easing.config Single.nan (.lone "racer") =
          r.tick easing.config 0.0 (.lone "racer")) ∧
    (∀ r ∈ easing.rigs, ∀ sought goal, r.Eases easing.config (.lone "racer") sought goal →
      (r.tick easing.config Single.nan (.lone "racer")).value =
        (sought.eased easing.config goal Single.nan, none) ∧
      (r.tick easing.config 0.0 (.lone "racer")).value =
        (sought.eased easing.config goal 0.0, none) ∧
      (Single.nan.isFinite = false →
        sought.eased easing.config goal Single.nan =
          (sought.beginRecovery easing.config .notFinite).value ∧
        (sought.eased easing.config goal Single.nan).target.isRecovering = true)) ∧
    ((∀ r ∈ easing.rigs, ∀ sought goal, ¬r.Eases easing.config (.lone "racer") sought goal) →
      easing.update Single.nan (.lone "racer") = easing.update 0.0 (.lone "racer")) := by
  have hbad : BadStep Single.nan := .inl (by decide +kernel)
  exact ⟨hbad, update_badStep easing Single.nan hbad (.lone "racer")⟩

/-- A step that is no number makes a rig lose the target that a step of no time leaves to it. -/
theorem update_nan_losesTarget :
    (easing.update 0.0 (.lone "racer")).value.rigs.map (·.target.isBound) = [true] ∧
      (easing.update Single.nan (.lone "racer")).value.rigs.map (·.target.isBound) = [false] ∧
      (easing.update Single.nan (.lone "racer")).value.events.map (·.change) =
        (easing.update 0.0 (.lone "racer")).value.events.map (·.change) ++
          [.targetLost "racer" FollowFault.notFinite.message] := by
  decide +kernel

end Fleet

end Skycam
