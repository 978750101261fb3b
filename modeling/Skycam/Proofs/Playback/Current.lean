import Skycam.Playback

/-!
# The active keyframe is the current one

What was found out about a keyframe is kept as long as that keyframe is current and no longer, and
the claim that a step of time reports is that of the keyframe which is active at its end. This is
what ties a playback to the control of its rig. The cameras may be given a field of view and a
projection on the way, but they are neither switched nor moved to another surface.
-/

namespace Skycam

variable {α : Type}

namespace Body

/-- The cameras of two bodies are switched alike and draw into the same surface. -/
def RiggedAs (b c : Body α) : Prop :=
  b.cameras.enabled = c.cameras.enabled ∧ b.cameras.surfaceGeneration = c.cameras.surfaceGeneration

theorem RiggedAs.refl (b : Body α) : b.RiggedAs b := ⟨rfl, rfl⟩

theorem RiggedAs.trans {a b c : Body α} (hab : a.RiggedAs b) (hbc : b.RiggedAs c) :
    a.RiggedAs c :=
  ⟨hab.1.trans hbc.1, hab.2.trans hbc.2⟩

theorem setPose_riggedAs (b : Body α) (pose : Pose α) : (b.setPose pose).RiggedAs b := ⟨rfl, rfl⟩

theorem setFov_riggedAs (b : Body α) (fov : α) : (b.setFov fov).RiggedAs b := ⟨rfl, rfl⟩

theorem setOrthographic_riggedAs (b : Body α) (orthographic : Bool) :
    (b.setOrthographic orthographic).RiggedAs b := ⟨rfl, rfl⟩

end Body

namespace Keyframe

theorem project_riggedAs (k : Keyframe α) (b : Body α) : (k.project b).RiggedAs b := by
  unfold project
  split
  · exact b.setOrthographic_riggedAs _
  · exact .refl b

/-- The field of view at the beginning of a keyframe switches nothing. -/
theorem openFov_riggedAs [Scalar α] (k : Keyframe α) (b : Body α) :
    (k.openFov b).1.RiggedAs b := by
  unfold openFov
  split
  · exact .refl b
  · split
    · exact .refl b
    · exact b.setFov_riggedAs _

/-- The rig belongs to the script unless the keyframe hands it to a follow mode. -/
theorem claim_eq_cinematic_iff (k : Keyframe α) : k.claim = .cinematic ↔ k.follow = none := by
  unfold claim
  cases k.follow <;> simp

end Keyframe

/-- On its way a keyframe switches none of the cameras. -/
theorem ActiveKeyframe.moveBody_riggedAs [Kinematics α] (a : ActiveKeyframe α) (k : Keyframe α)
    (t dt : α) (roster : Roster α) (b : Body α) : (a.moveBody k t dt roster b).RiggedAs b := by
  unfold moveBody
  cases a.fovTween with
  | none => exact b.setPose_riggedAs _
  | some ends => exact (Body.setFov_riggedAs _ _).trans (b.setPose_riggedAs _)

namespace Playback

/-- The keyframe at the present index is `k`, and it is being played. -/
def Plays (p : Playback α) (k : Keyframe α) : Prop :=
  p.status = .playing ∧ p.index < p.script.length ∧ p.script.keyframes[p.index]? = some k

/-- The current keyframe is the one at the present index while the playback goes on. -/
theorem current?_eq_some_iff {p : Playback α} {k : Keyframe α} :
    p.current? = some k ↔ p.Plays k := by
  unfold current? isPlaying Plays
  cases p.status with
  | playing =>
    have hbound : p.script.keyframes[p.index]? = some k → p.index < p.script.length := by
      intro hk
      obtain ⟨hlt, -⟩ := List.getElem?_eq_some_iff.mp hk
      exact hlt
    simpa using hbound
  | idle | finished => simp

/-- What was found out about a keyframe is kept only while that keyframe is current. -/
def Settled (p : Playback α) : Prop := p.active.isSome → ∃ k, p.Plays k

end Playback

/-- The state `s` in the course of a step of time that began with the playback `p` and the body `b`.
If a keyframe is active in it, that keyframe is current, and either the step has reported its claim
or it was active and current from the beginning. -/
structure Progress.InStep (p : Playback α) (b : Body α) (s : Progress α) : Prop where
  /-- The script stays. -/
  script : s.playback.script = p.script
  /-- The cameras stay on or off and on their surface. -/
  rigged : s.body.RiggedAs b
  /-- The active keyframe is current, and its claim is the last one reported. -/
  active : s.playback.active.isSome → ∃ k, s.playback.Plays k ∧
    (s.step.claimed = some k.claim ∨
      s.step.claimed = none ∧ p.active.isSome ∧ s.playback.index = p.index)

namespace Progress

variable {p : Playback α} {b : Body α} {s : Progress α}

/-- What is active when the step begins is current by assumption. -/
theorem InStep.start (h : p.Settled) (b : Body α) : InStep p b ⟨p, b, .none⟩ where
  script := rfl
  rigged := .refl b
  active := fun hsome => by
    obtain ⟨k, hk⟩ := h hsome
    exact ⟨k, hk, Or.inr ⟨rfl, hsome, rfl⟩⟩

/-- Time may go by and the body may move as long as the keyframe stays the same. -/
theorem InStep.congr (hs : InStep p b s) {t : Progress α}
    (hplayback : t.playback = { s.playback with elapsed := t.playback.elapsed })
    (hbody : t.body.RiggedAs s.body) (hclaim : t.step.claimed = s.step.claimed) :
    InStep p b t where
  script := by rw [hplayback]; exact hs.script
  rigged := hbody.trans hs.rigged
  active := by
    rw [hplayback, hclaim]
    exact hs.active

/-- Without an active keyframe there is nothing to keep in step. -/
theorem InStep.ended (hs : InStep p b s) {t : Progress α}
    (hscript : t.playback.script = s.playback.script) (hbody : t.body.RiggedAs s.body)
    (hactive : t.playback.active = none) : InStep p b t where
  script := hscript.trans hs.script
  rigged := hbody.trans hs.rigged
  active := fun hsome => by simp [hactive] at hsome

section Steps

variable [Kinematics α] {k : Keyframe α} {roster : Roster α}

/-- What is kept when an instant keyframe ends and when time goes by in another one is kept by all
that a step of time runs. -/
theorem run_induction {P : Progress α → Prop} {dt : α}
    (instant : ∀ s k, P s → s.playback.Plays k → P ((s.applyInstant k).advance roster).value)
    (timed : ∀ s k, P s → s.playback.Plays k → P (s.runTimed k dt roster).value) (budget : Nat)
    (h : P s) : P (Progress.run dt roster budget s).value := by
  induction budget generalizing s with
  | zero =>
    unfold Progress.run
    split
    · exact h
    · next k hk =>
      split
      · exact h
      · exact timed s k h (Playback.current?_eq_some_iff.mp hk)
  | succ budget ih =>
    unfold Progress.run
    split
    · exact h
    · next k hk =>
      have hplays := Playback.current?_eq_some_iff.mp hk
      split
      · exact ih (instant s k h hplays)
      · exact timed s k h hplays

theorem InStep.setUp (hs : InStep p b s) (hk : s.playback.Plays k) :
    InStep p b (s.setUp k roster).value where
  script := hs.script
  rigged := by
    have hopen := k.openFov_riggedAs (k.project s.body)
    exact (hopen.trans (k.project_riggedAs s.body)).trans hs.rigged
  active := fun _ => ⟨k, hk, Or.inl rfl⟩

/-- To go to another index sets up the keyframe there, or finds none and leaves none active. -/
theorem InStep.goTo (hs : InStep p b s) (hplaying : s.playback.status = .playing) (index : Nat) :
    InStep p b (s.goTo index roster).value := by
  have hended : InStep p b
      { s with playback := { s.playback with index, elapsed := 0.0, active := none } } :=
    hs.ended rfl (.refl _) rfl
  unfold Progress.goTo
  split
  · next k hk =>
    obtain ⟨hindex, -⟩ := List.getElem?_eq_some_iff.mp hk
    exact hended.setUp ⟨hplaying, hindex, hk⟩
  · exact hended

/-- The end of a keyframe leads to one that is set up, or to the end of the playback. -/
theorem InStep.advance (hs : InStep p b s) (hplaying : s.playback.status = .playing) :
    InStep p b (s.advance roster).value := by
  unfold Progress.advance
  dsimp only
  split
  · exact hs.goTo hplaying _
  · split
    · exact hs.goTo hplaying 0
    · exact hs.ended rfl (.refl _) rfl

theorem InStep.applyInstant (hs : InStep p b s) : InStep p b (s.applyInstant k) :=
  hs.congr rfl (s.body.setPose_riggedAs _) rfl

theorem InStep.advanceIf (hs : InStep p b s) (hplaying : s.playback.status = .playing)
    {isOver : Prop} [Decidable isOver] :
    InStep p b (if isOver then s.advance roster else pure s).value := by
  split
  · exact hs.advance hplaying
  · exact hs

/-- A keyframe that takes time stays current until it is ended. -/
theorem InStep.runTimed (hs : InStep p b s) (hplaying : s.playback.status = .playing) {dt : α} :
    InStep p b (s.runTimed k dt roster).value := by
  have htimed : InStep p b
      { s with playback := { s.playback with elapsed := s.playback.elapsed + dt } } :=
    hs.congr rfl (.refl _) rfl
  unfold Progress.runTimed
  dsimp only
  split
  · apply InStep.advanceIf
    · split
      · exact htimed.congr rfl (ActiveKeyframe.moveBody_riggedAs _ _ _ _ _ _) rfl
      · exact htimed
    · split <;> exact hplaying
  · apply InStep.advanceIf
    · exact htimed.congr rfl (.refl _) rfl
    · exact hplaying

/-- A chain of keyframes that take no time ends each of them in the same way. -/
theorem InStep.run {dt : α} (budget : Nat) (hs : InStep p b s) :
    InStep p b (Progress.run dt roster budget s).value := by
  refine run_induction (fun s k hs hk => ?_) (fun s k hs hk => ?_) budget hs
  · exact hs.applyInstant.advance hk.1
  · exact hs.runTimed hk.1

theorem InStep.prepare (hs : InStep p b s) : InStep p b (s.prepare roster).value := by
  unfold Progress.prepare
  split
  · next hk => exact hs.setUp (Playback.current?_eq_some_iff.mp hk)
  · exact hs

end Steps

end Progress

/-- A whole step of time keeps the invariant of its beginning. -/
theorem Playback.tick_inStep [Kinematics α] {p : Playback α} (h : p.Settled) (dt : α)
    (b : Body α) (roster : Roster α) : Progress.InStep p b (p.tick dt b roster).value :=
  (Progress.InStep.start h b).prepare.run _

end Skycam
