import Skycam.Proofs.Playback.Current
import Skycam.Proofs.Rig.Move

/-!
# The parts of an open rig agree

A rig is made of parts that know nothing of each other: target, overlay, cameras, surface, playback
and control. `Rig.Live` says how they have to agree while the rig is open. Every move keeps it
(`Rig.Live.move`): binding and losing a target set the cameras and the overlay together, the control
changes only together with the overlay, and a keyframe that is active has set the control when it
became current.
-/

namespace Skycam

theorem Surface.one_le_max (n : UInt32) : 1 ≤ max n 1 := by
  have hmax : max n 1 = if n ≤ 1 then 1 else n := rfl
  rw [hmax]
  split
  · exact UInt32.le_refl 1
  · next h => exact UInt32.le_of_lt (UInt32.not_le.mp h)

namespace Rig

/-- The parts of an open rig that have to do with its target and its surface agree. -/
structure Wired (r : Rig) : Prop where
  /-- The name is not blank. -/
  notBlank : r.id.isBlank = false
  /-- The rig is not gone. -/
  notDestroyed : r.destroyed = none
  /-- The surface is there. -/
  notReleased : r.surface.released = false
  /-- The rig is on the display. -/
  attached : r.overlay.attached = true
  /-- The surface has a width. -/
  width : 1 ≤ r.surface.width
  /-- The surface has a height. -/
  height : 1 ≤ r.surface.height
  /-- The cameras draw into the present surface. -/
  generation : r.body.cameras.surfaceGeneration = r.surface.generation
  /-- The cameras are off exactly while a target is waited for. -/
  enabled : r.body.cameras.enabled = false ↔ r.target.isRecovering = true
  /-- The display shows the name of the target. -/
  label : r.overlay.label = r.target.username?.getD ""
  /-- The local viewer is followed by its place to start, anyone else by the body. -/
  anchor : ∀ username handle isLocal, r.target = .bound username handle isLocal →
    handle.anchor = if isLocal then .reset else .body

/-- All parts of an open rig agree. -/
structure Live (r : Rig) : Prop extends Wired r where
  /-- While a follow mode moves the rig, the name of the target is shown, and its readings are shown
  unless it is the local viewer. -/
  shown : r.control = .follow → r.overlay.nameLabel = true ∧
    ∀ username handle isLocal, r.target = .bound username handle isLocal →
      r.overlay.telemetry = !isLocal
  /-- A keyframe that is active is current, and the script moves the rig unless that keyframe
  belongs to a follow mode. -/
  active : r.playback.active.isSome →
    ∃ k, r.playback.Plays k ∧ (r.control = .cinematic ↔ k.follow = none)

variable {config : Config} {r : Rig}

/-- An active keyframe of an open rig is current. -/
theorem Live.settled (h : r.Live) : r.playback.Settled := by
  intro hactive
  obtain ⟨k, hplays, -⟩ := h.active hactive
  exact ⟨k, hplays⟩

/-! ## A new rig -/

/-- The parts of a new rig agree. -/
theorem new_live {id : RigId} (hid : id.isBlank = false) (cinematic : Bool) :
    (Rig.new config id cinematic).Live where
  notBlank := hid
  notDestroyed := rfl
  notReleased := rfl
  attached := by cases cinematic <;> rfl
  width := Surface.one_le_max _
  height := Surface.one_le_max _
  generation := rfl
  enabled := by simp [Rig.new, Cameras.new, Cameras.bind, Body.setFov, Target.isRecovering]
  label := by cases cinematic <;> rfl
  anchor := by simp [Rig.new]
  shown := by cases cinematic <;> simp [Rig.new, Overlay.standard]
  active := by simp [Rig.new, Playback.new]

/-! ## Binding and losing a target -/

theorem Live.emit (h : r.Live) (change : RigChange) : (r.emit change).Live := { h with }

/-- A rig that is bound switches its cameras on and shows its target. -/
theorem Live.attach (h : r.Live) {username : String} {handle : Handle} {isLocal : Bool}
    {pose : Pose Float32} (suits : handle.Suits isLocal) :
    (r.attached config username handle isLocal pose).Live := by
  apply Live.emit
  refine { h with enabled := ?_, label := rfl, anchor := ?_, shown := ?_ }
  · simp [Body.setPose, Body.setFov, Body.setEnabled, Target.isRecovering]
  · rintro _ _ _ ⟨⟩
    exact suits
  · intro hfollow
    refine ⟨(h.shown hfollow).1, ?_⟩
    rintro _ _ _ ⟨⟩
    rfl

/-- The name that is waited for stays the same. -/
theorem Live.waited (h : r.Live) {username : String} {before after : RecoveryTimer Float32}
    (hwaits : r.target = .recovering username before) :
    Live { r with target := .recovering username after } where
  toWired :=
    { h with
      enabled := by simpa [hwaits, Target.isRecovering] using h.enabled
      label := by simpa [hwaits, Target.username?] using h.label
      anchor := by simp }
  shown := fun hfollow => ⟨(h.shown hfollow).1, by simp⟩
  active := h.active

/-- A rig that loses its target switches its cameras off and keeps the name. -/
theorem Live.lost (h : r.Live) (fault : FollowFault) :
    (r.beginRecovery config fault).value.Live := by
  unfold beginRecovery
  cases hname : r.targetName? with
  | none => exact h
  | some username =>
    have hlabel : r.overlay.label = username := by
      have hlabel := h.label
      simp only [targetName?] at hname
      simpa [hname] using hlabel
    apply Live.emit
    refine { h with enabled := ?_, label := hlabel, anchor := ?_, shown := ?_ }
    · simp [Body.setEnabled, Target.isRecovering]
    · simp
    · exact fun hfollow => ⟨(h.shown hfollow).1, by simp⟩

/-! ## Control and playback -/

section SetFollowMode

variable (config r) (mode : FollowMode)

@[simp] theorem setFollowMode_control : (r.setFollowMode config mode).control = r.control := by
  unfold Rig.setFollowMode
  dsimp only
  split <;> rfl

@[simp] theorem setFollowMode_playback : (r.setFollowMode config mode).playback = r.playback := by
  unfold Rig.setFollowMode
  dsimp only
  split <;> rfl

@[simp] theorem setFollowMode_overlay : (r.setFollowMode config mode).overlay = r.overlay := by
  unfold Rig.setFollowMode
  dsimp only
  split <;> rfl

@[simp] theorem setFollowMode_target : (r.setFollowMode config mode).target = r.target := by
  unfold Rig.setFollowMode
  dsimp only
  split <;> rfl

end SetFollowMode

/-- The follow mode has no part in what the target and the surface agree on. -/
theorem Wired.setFollowMode (h : r.Wired) (mode : FollowMode) :
    (r.setFollowMode config mode).Wired := by
  unfold Rig.setFollowMode
  dsimp only
  split <;> exact { h with }

theorem Live.setFollowMode (h : r.Live) (mode : FollowMode) :
    (r.setFollowMode config mode).Live where
  toWired := h.toWired.setFollowMode mode
  shown := by simpa using h.shown
  active := by simpa using h.active

/-- A rig that shows what belongs to its target may be moved by a follow mode, if no keyframe of the
script is active or the active one belongs to a follow mode. -/
theorem Wired.showFollow (h : r.Wired) (hcontrol : r.control = .follow)
    (hactive : r.playback.active.isSome → ∃ k, r.playback.Plays k ∧ k.follow ≠ none) :
    r.showFollow.Live where
  toWired := { h with }
  shown := fun _ => ⟨rfl, by
    intro username handle isLocal htarget
    have hlocal : r.target.isLocal = isLocal := by
      have htarget : r.target = .bound username handle isLocal := htarget
      simp [htarget, Target.isLocal]
    simp [Rig.showFollow, Overlay.showFollow, hlocal]⟩
  active := fun hsome => by
    obtain ⟨k, hplays, hfollow⟩ := hactive hsome
    refine ⟨k, hplays, ?_⟩
    simp [Rig.showFollow, hcontrol, hfollow]

/-- A rig that hides what belongs to its target may be moved by its script, if no keyframe is active
or the active one does not belong to a follow mode. -/
theorem Wired.hideFollow (h : r.Wired) (hcontrol : r.control = .cinematic)
    (hactive : r.playback.active.isSome → ∃ k, r.playback.Plays k ∧ k.follow = none) :
    r.hideFollow.Live where
  toWired := { h with }
  shown := fun hfollow => by simp [Rig.hideFollow, hcontrol] at hfollow
  active := fun hsome => by
    obtain ⟨k, hplays, hfollow⟩ := hactive hsome
    refine ⟨k, hplays, ?_⟩
    simp [Rig.hideFollow, hcontrol, hfollow]

theorem Live.enterCinematic (h : r.Live) (uiVisible : Bool) (script : Option (Script Float32)) :
    (r.enterCinematic uiVisible script).Live where
  toWired := { h with }
  shown := by simp [Rig.enterCinematic]
  active := by cases script <;> simp [Rig.enterCinematic, Playback.start, Playback.restart]

theorem Live.leaveCinematic (h : r.Live) (uiVisible : Bool) :
    (r.leaveCinematic uiVisible).Live := by
  apply Wired.showFollow
  · exact { h with }
  · rfl
  · simp [Playback.stop]

theorem Live.runScript (h : r.Live) (script : Script Float32) : (r.runScript script).Live :=
  { h with active := by simp [Rig.runScript, Playback.start, Playback.restart] }

theorem Live.stopScript (h : r.Live) : r.stopScript.Live :=
  { h with active := by simp [Rig.stopScript, Playback.stop] }

/-- A rig that obeys the claim of its active keyframe has its parts in agreement. -/
theorem Wired.obey (h : r.Wired) (claim : Claim)
    (hactive : r.playback.active.isSome → ∃ k, r.playback.Plays k ∧ k.claim = claim) :
    (r.obey config claim).Live := by
  cases claim with
  | cinematic =>
    apply Wired.hideFollow
    · exact { h with }
    · rfl
    · intro hsome
      obtain ⟨k, hplays, hclaim⟩ := hactive hsome
      exact ⟨k, hplays, k.claim_eq_cinematic_iff.mp hclaim⟩
  | follow mode =>
    apply Wired.showFollow
    · apply Wired.setFollowMode
      exact { h with }
    · simp
    · simp only [setFollowMode_playback]
      intro hsome
      obtain ⟨k, hplays, hclaim⟩ := hactive hsome
      refine ⟨k, hplays, fun hnone => ?_⟩
      rw [k.claim_eq_cinematic_iff.mpr hnone] at hclaim
      cases hclaim

/-- The rig after a step of playback, before it obeys a claim. -/
def played (r : Rig) (p : Progress Float32) : Rig :=
  { r with
    playback := p.playback
    body := p.body
    events := r.events ++ p.step.started.map .keyframeStarted }

/-- The rig after a step of playback, once it has obeyed the claim, if there is one. -/
def claimed (config : Config) (r : Rig) (p : Progress Float32) : Rig :=
  match p.step.claimed with
  | some claim => (r.played p).obey config claim
  | none => r.played p

/-- The end of the script is told last. -/
theorem afterPlayback_eq (p : Progress Float32) :
    r.afterPlayback config p =
      if p.step.finished then (r.claimed config p).emit .playbackFinished
      else r.claimed config p :=
  rfl

/-- The script neither switches the cameras nor moves them to another surface. -/
theorem Wired.played (h : r.Wired) {p : Progress Float32}
    (hp : Progress.InStep r.playback r.body p) : (r.played p).Wired := by
  refine { h with generation := hp.rigged.2.trans h.generation, enabled := ?_ }
  exact (congrArg (· = false) hp.rigged.1).to_iff.trans h.enabled

/-- A step of playback leaves the parts in agreement: the control is set by the claim of the last
keyframe that became current, which is the one that is active. -/
theorem Live.afterPlayback (h : r.Live) {p : Progress Float32}
    (hp : Progress.InStep r.playback r.body p) : (r.afterPlayback config p).Live := by
  have hwired : (r.played p).Wired := h.toWired.played hp
  have hclaimed : (r.claimed config p).Live := by
    unfold claimed
    cases hstep : p.step.claimed with
    | none =>
      -- no keyframe became current, so an active one is the one from before
      refine { hwired with shown := h.shown, active := fun hsome => ?_ }
      obtain ⟨k, hplays, hclaim | ⟨-, hold, hindex⟩⟩ := hp.active hsome
      · simp [hstep] at hclaim
      · obtain ⟨k', hplays', hcontrol⟩ := h.active hold
        have hsame : k = k' := by
          have hk := hplays.2.2
          rw [hp.script, hindex, hplays'.2.2] at hk
          exact (Option.some.inj hk).symm
        exact ⟨k, hplays, hsame ▸ hcontrol⟩
    | some claim =>
      refine hwired.obey claim fun hsome => ?_
      obtain ⟨k, hplays, hclaim | ⟨hclaim, -⟩⟩ := hp.active hsome
      · exact ⟨k, hplays, by simpa [hstep] using hclaim.symm⟩
      · simp [hstep] at hclaim
  rw [afterPlayback_eq]
  split
  · exact hclaimed.emit _
  · exact hclaimed

/-! ## Window and surface -/

/-- A new surface has a size, and the cameras draw into it. -/
theorem Live.resizeSurface (h : r.Live) (width height : UInt32) :
    (r.resizeSurface width height).1.Live := by
  unfold Rig.resizeSurface
  split
  · exact h
  · next surface hsurface =>
    have hsize : surface = { r.surface with
        width := max width 1
        height := max height 1
        generation := r.surface.generation + 1 } := by
      simp only [Surface.resize?] at hsurface
      split at hsurface
      · cases hsurface
      · exact (Option.some.inj hsurface).symm
    apply Live.emit
    refine { h with notReleased := ?_, width := ?_, height := ?_, generation := rfl }
    · rw [hsize]
      exact h.notReleased
    · rw [hsize]
      exact Surface.one_le_max width
    · rw [hsize]
      exact Surface.one_le_max height

theorem Live.setUiVisible (h : r.Live) (visible : Bool) : (r.setUiVisible visible).1.Live := by
  unfold Rig.setUiVisible
  split
  · exact h
  · exact { h with }

/-- Every move leaves the parts of a rig in agreement. -/
theorem Live.move {r' : Rig} (h : r.Live) (hmove : Move config r r') : r'.Live := by
  cases hmove with
  | attach username handle isLocal pose suits => exact h.attach suits
  | wait username before after waits => exact h.waited waits
  | recover username after => exact h.emit _
  | lose fault => exact h.lost fault
  | follow pose => exact { h with }
  | play dt roster => exact h.afterPlayback (Playback.tick_inStep h.settled dt r.body roster)
  | mode mode => exact h.setFollowMode mode
  | fov fov => exact { h with }
  | enterCinematic uiVisible script => exact h.enterCinematic uiVisible script
  | leaveCinematic uiVisible => exact h.leaveCinematic uiVisible
  | runScript script => exact h.runScript script
  | stopScript => exact h.stopScript
  | showWindow visible => exact h.setUiVisible visible
  | lock locked => exact { h with }
  | place rect => exact { h with }
  | resize width height => exact h.resizeSurface width height

/-- What each move keeps, any number of them keep. -/
theorem Live.moves {r' : Rig} (h : r.Live) (hmoves : Moves config r r') : r'.Live := by
  induction hmoves with
  | refl => exact h
  | tail _ hmove ih => exact ih.move hmove

theorem Live.delivered (h : r.Live) : r.delivered.Live := { h with }

end Rig

end Skycam
