import Skycam.Proofs.Rig.Expiry

/-!
# The phases of a step of time

A step of time that does not end a rig has three phases: the look for a lost target, the script, and
the follow mode. What each can make of the rig is said here by cases, together with the one way in
which a rig is bound to a player, whoever asks for it (`Rig.Binds`).
-/

namespace Skycam

/-- A follow mode gives a pose just if the target has a finite one and its own is finite. -/
theorem FollowTuning.follow_eq_ok_iff {t : FollowTuning} {mode : FollowMode} {name : String}
    {target : Option (Pose Float32)} {current pose : Pose Float32} {dt : Float32} :
    t.follow mode name target current dt = .ok pose ↔ ∃ goal, target = some goal ∧
      goal.isFinite = true ∧ t.nextPose mode goal current dt = pose ∧ pose.isFinite = true := by
  cases target with
  | none => simp [follow]
  | some goal =>
    simp only [follow, Option.some.injEq, exists_eq_left']
    split
    · next hfinite =>
      obtain ⟨hgoal, hnext⟩ := Bool.and_eq_true_iff.mp hfinite
      constructor
      · rintro ⟨⟩
        exact ⟨hgoal, rfl, hnext⟩
      · rintro ⟨-, rfl, -⟩
        rfl
    · next hfault =>
      constructor
      · rintro ⟨⟩
      · rintro ⟨hgoal, rfl, hnext⟩
        exact absurd (Bool.and_eq_true_iff.mpr ⟨hgoal, hnext⟩) hfault

namespace Rig

/-- The rig is bound to a player of the roster who can be followed at present. -/
def Binds (config : Config) (roster : Roster Float32) (r bound : Rig) : Prop :=
  ∃ e ∈ roster.entries, ∃ h pose, roster.bindable? e = some (h, pose) ∧
    bound = r.attached config e.username h e.isLocal pose

/-- What the look for a lost target can make of a rig that stays. -/
inductive Polled (config : Config) (dt : Float32) (roster : Roster Float32) (r : Rig) :
    Rig → Prop where
  /-- It does not wait for a target. -/
  | ready (notWaiting : r.target.isRecovering = false) : Polled config dt roster r r
  /-- It goes on waiting. -/
  | waits (username : String) (timer : RecoveryTimer Float32)
      (target : r.target = .recovering username timer) :
      Polled config dt roster r (r.waited username timer dt)
  /-- It finds its target again. -/
  | found (username : String) (timer : RecoveryTimer Float32) (e : Entry) (handle : Handle)
      (pose : Pose Float32) (target : r.target = .recovering username timer)
      (isDue : (timer.advance dt).1 ≠ .wait)
      (sighted : roster.sighted? username = some (e, handle, pose)) :
      Polled config dt roster r (r.rebound config username timer dt e handle pose)

variable {config : Config} {r bound ready : Rig} {dt : Float32} {roster : Roster Float32}
  {e : Entry}

/-! ## Binding -/

theorem bind?_binds (he : e ∈ roster.entries)
    (h : (r.bind? config e roster).value = some bound) : r.Binds config roster bound := by
  rw [bind?_value] at h
  obtain ⟨⟨handle, pose⟩, hbind, rfl⟩ := Option.map_eq_some_iff.mp h
  exact ⟨e, he, handle, pose, hbind, rfl⟩

theorem bindFirst?_binds (h : (r.bindFirst? config roster).value = some bound) :
    r.Binds config roster bound := by
  obtain ⟨e, handle, pose, hfirst, hfinite, rfl⟩ := bindFirst?_eq_some_iff.mp h
  obtain ⟨he, hposed⟩ := Roster.firstPosed?_mem hfirst
  obtain ⟨hhandle, hpose⟩ := Roster.posed?_eq_some_iff.mp hposed
  exact ⟨e, he, handle, pose, Roster.bindable?_eq_some_iff.mpr ⟨hhandle, hpose, hfinite⟩, rfl⟩

/-! ## The look for a lost target -/

/-- The look for a lost target makes one of three things of a rig that stays. -/
theorem pollRecovery_polled (h : (r.pollRecovery config dt roster).value = (ready, none)) :
    r.Polled config dt roster ready := by
  cases htarget : r.target with
  | unbound | bound =>
    have hnot : r.target.isRecovering = false := by simp [htarget, Target.isRecovering]
    rw [pollRecovery_value_of_not_recovering hnot, Prod.mk.injEq] at h
    rw [← h.1]
    exact .ready hnot
  | recovering username timer =>
    rw [pollRecovery_value_of_recovering htarget] at h
    cases hdue : (timer.advance dt).1 <;> cases hsighted : roster.sighted? username <;>
      simp only [hdue, hsighted, Prod.mk.injEq, and_true, reduceCtorEq, and_false] at h <;> subst h
    case poll.some | final.some =>
      exact .found username timer _ _ _ htarget (by simp [hdue]) hsighted
    all_goals exact .waits username timer htarget

/-- A step of time that does not end the rig is the look for a lost target, then the script, then
the follow mode. -/
theorem aged_eq_of_stays (h : r.expires config dt roster = false) :
    ∃ ready, r.Polled config dt roster ready ∧
      r.aged config dt roster =
        ((ready.runPlayback config dt roster).value.runFollow config dt roster).value := by
  have htick : (r.tick config dt roster).value = (r.aged config dt roster, none) := by
    rw [tick_value, h]
    rfl
  cases hpoll : (r.pollRecovery config dt roster).value with
  | mk ready reason =>
    cases reason with
    | some reason =>
      rw [tick_value_of_poll_some hpoll] at htick
      cases htick
    | none =>
      rw [tick_value_of_poll_none hpoll, Prod.mk.injEq] at htick
      exact ⟨ready, pollRecovery_polled hpoll, htick.1.symm⟩

/-- A rig that does not wait for a target stays, and is not looked for. -/
theorem aged_eq_of_not_recovering (h : r.target.isRecovering = false) (config : Config)
    (dt : Float32) (roster : Roster Float32) :
    r.expires config dt roster = false ∧
      r.aged config dt roster =
        ((r.runPlayback config dt roster).value.runFollow config dt roster).value := by
  have hpoll : (r.pollRecovery config dt roster).value = (r, none) :=
    pollRecovery_value_of_not_recovering h
  simp [expires, aged, tick_value_of_poll_none hpoll]

/-! ## The follow mode -/

/-- The search for a first target leaves the rig as it is or binds it. -/
theorem seekTarget_cases : (r.seekTarget config roster).value = r ∨
    r.target = .unbound ∧ r.Binds config roster (r.seekTarget config roster).value := by
  unfold seekTarget
  split
  · next htarget =>
    cases hbound : (r.bindFirst? config roster).value with
    | none => exact .inl (by simp [hbound])
    | some bound => exact .inr ⟨htarget, by simpa [hbound] using bindFirst?_binds hbound⟩
  · exact .inl rfl

/-- A rig that follows its target takes a finite pose or loses the target. -/
theorem followTarget_cases : (r.followTarget config dt roster).value = r ∨
    (∃ pose, pose.isFinite = true ∧
      (r.followTarget config dt roster).value = { r with body := r.body.setPose pose }) ∨
    ∃ fault, (r.followTarget config dt roster).value = (r.beginRecovery config fault).value := by
  unfold followTarget
  split
  · next username handle isLocal _ =>
    cases hnext : config.tuning.follow r.mode username (roster.pose? handle) r.body.pose dt with
    | ok pose =>
      obtain ⟨goal, -, -, -, hfinite⟩ := FollowTuning.follow_eq_ok_iff.mp hnext
      exact .inr (.inl ⟨pose, hfinite, rfl⟩)
    | error fault => exact .inr (.inr ⟨fault, rfl⟩)
  · exact .inl rfl

end Rig

end Skycam
