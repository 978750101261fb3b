import Skycam.Proofs.Rig.Sighting

/-!
# The last step of a rig

A step of time ends a rig only in one case: the rig waits for its target, the last look at the
roster is due, and that look is in vain. Such a step does nothing else to the rig, so that no event
comes between those from before and the end.
-/

namespace Skycam.Rig

/-- The rig waits for its target, the last look at the roster is due, and there is no player of that
name, or the first one has no live entity, or the handle by which that one is followed has no finite
pose. -/
def WaitsInVain (dt : Float32) (roster : Roster Float32) (r : Rig) : Prop :=
  ∃ username timer, r.target = .recovering username timer ∧ (timer.advance dt).1 = .final ∧
    (roster.find? username = none ∨ ∃ e, roster.find? username = some e ∧
      (e.live = none ∨ ∃ h, e.followHandle? = some h ∧
        ∀ pose, roster.pose? h = some pose → pose.isFinite = false))

/-- The rig after a step of time, whether it has to go or not. -/
def aged (config : Config) (dt : Float32) (roster : Roster Float32) (r : Rig) : Rig :=
  (r.tick config dt roster).value.1

/-- Whether a step of time is the last one of the rig. -/
def expires (config : Config) (dt : Float32) (roster : Roster Float32) (r : Rig) : Bool :=
  (r.tick config dt roster).value.2.isSome

variable {config : Config} {dt : Float32} {roster : Roster Float32} {r : Rig}

theorem aged_moves (config : Config) (dt : Float32) (roster : Roster Float32) (r : Rig) :
    Moves config r (r.aged config dt roster) :=
  tick_moves

@[simp] theorem aged_id : (r.aged config dt roster).id = r.id :=
  (aged_moves config dt roster r).id_eq

/-- A rig that has waited in vain has to go, and has only waited. -/
theorem tick_value_of_waitsInVain (config : Config) (h : r.WaitsInVain dt roster) :
    ∃ username timer, r.target = .recovering username timer ∧
      (r.tick config dt roster).value = (r.waited username timer dt, some .recoveryTimeout) := by
  obtain ⟨username, timer, htarget, hfinal, hvain⟩ := h
  have hsighted : roster.sighted? username = none := by
    simpa only [Roster.sighted?_eq_none_iff, Roster.bindable?_eq_none_iff] using hvain
  refine ⟨username, timer, htarget, tick_value_of_poll_some ?_⟩
  rw [pollRecovery_value_of_recovering htarget, hfinal, hsighted]

/-- A rig that has not waited in vain stays. -/
theorem tick_value_of_not_waitsInVain (h : ¬r.WaitsInVain dt roster) :
    (r.tick config dt roster).value = (r.aged config dt roster, none) := by
  have hready : ∃ ready, (r.pollRecovery config dt roster).value = (ready, none) := by
    cases htarget : r.target with
    | recovering username timer =>
      rw [pollRecovery_value_of_recovering htarget]
      cases hdue : (timer.advance dt).1 <;> cases hsighted : roster.sighted? username
      case final.none =>
        simp only [Roster.sighted?_eq_none_iff, Roster.bindable?_eq_none_iff] at hsighted
        exact absurd ⟨_, _, htarget, hdue, hsighted⟩ h
      all_goals exact ⟨_, rfl⟩
    | unbound | bound =>
      exact ⟨r, pollRecovery_value_of_not_recovering (by simp [htarget, Target.isRecovering])⟩
  obtain ⟨ready, hready⟩ := hready
  simp [aged, tick_value_of_poll_none hready]

theorem expires_iff : r.expires config dt roster = true ↔ r.WaitsInVain dt roster := by
  by_cases h : r.WaitsInVain dt roster
  · obtain ⟨username, timer, -, htick⟩ := tick_value_of_waitsInVain config h
    simp [expires, htick, h]
  · simp [expires, tick_value_of_not_waitsInVain h, h]

/-- What a step of time says about the end of a rig. -/
theorem tick_value : (r.tick config dt roster).value =
    (r.aged config dt roster,
      if r.expires config dt roster then some .recoveryTimeout else none) := by
  by_cases h : r.WaitsInVain dt roster
  · obtain ⟨username, timer, -, htick⟩ := tick_value_of_waitsInVain config h
    simp [expires_iff.mpr h, aged, htick]
  · have hstays : r.expires config dt roster = false :=
      Bool.eq_false_iff.mpr fun hexpires => h (expires_iff.mp hexpires)
    simp [hstays, tick_value_of_not_waitsInVain h]

/-- The last step of time raises no event. -/
theorem aged_events_of_waitsInVain (h : r.WaitsInVain dt roster) :
    (r.aged config dt roster).events = r.events := by
  obtain ⟨username, timer, -, htick⟩ := tick_value_of_waitsInVain config h
  simp [aged, htick, waited]

end Skycam.Rig
