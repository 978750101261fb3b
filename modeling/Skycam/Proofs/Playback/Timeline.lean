import Mathlib.Data.List.Forall2
import Skycam.Geometry.Rotation
import Skycam.Number.Float32
import Skycam.Proofs.Playback.Order

/-!
# The timeline ignores the scene

When a keyframe begins and when it ends is settled by the durations of the keyframes and by who
moves the rig during them. Where the body is, what is in the roster, and all else that a keyframe
says, has no part in it: two playbacks that get the same cues for scripts which agree in their
timing show the same, cue by cue (`Playback.readings_eq`). The proof runs both playbacks side by
side; they are in time with each other (`Playback.InTime`), and each part of a step of time keeps
them so.
-/

namespace Skycam

variable {α : Type}

/-- The keyframes take the same time, and the rig is moved by the same one meanwhile. -/
structure Keyframe.InTime (k l : Keyframe α) : Prop where
  duration : k.duration = l.duration
  follow : k.follow = l.follow

/-- The scripts have as many keyframes, which are in time with each other pair by pair, and both
start over or both do not. -/
structure Script.InTime (s t : Script α) : Prop where
  keyframes : List.Forall₂ Keyframe.InTime s.keyframes t.keyframes
  looping : s.looping = t.looping

/-- What can be asked of a playback. -/
inductive Cue (α : Type) where
  /-- To start a script. -/
  | start (script : Script α)
  /-- To start its script over. -/
  | restart
  /-- To stop. -/
  | stop
  /-- To let a step of time go by. -/
  | tick (m : Moment α)

/-- The cues are of one kind: scripts to be started are in time with each other, and steps of time
are of one length, whatever bodies and rosters they are given. -/
inductive Cue.InTime : Cue α → Cue α → Prop where
  | start (s t : Script α) (scripts : s.InTime t) : InTime (.start s) (.start t)
  | restart : InTime .restart .restart
  | stop : InTime .stop .stop
  | tick (dt : α) (b c : Body α) (roster others : Roster α) :
    InTime (.tick ⟨dt, b, roster⟩) (.tick ⟨dt, c, others⟩)

/-- What a playback shows after a cue. -/
structure Reading (α : Type) where
  /-- What the step of time brought about; the other cues bring nothing about. -/
  step : PlaybackStep
  index : Nat
  elapsed : α
  status : PlaybackStatus
  deriving DecidableEq

namespace Playback

/-- The playback after a cue, and what that brought about. -/
def take [Kinematics α] (p : Playback α) : Cue α → Playback α × PlaybackStep
  | .start script => (p.start script, .none)
  | .restart => (p.restart, .none)
  | .stop => (p.stop, .none)
  | .tick m =>
    let s := (p.tick m.dt m.body m.roster).value
    (s.playback, s.step)

/-- What a playback shows after each of some cues. -/
def readings [Kinematics α] (p : Playback α) : List (Cue α) → List (Reading α)
  | [] => []
  | cue :: rest =>
    let (q, step) := p.take cue
    ⟨step, q.index, q.elapsed, q.status⟩ :: q.readings rest

/-- The playbacks have come equally far in scripts that are in time with each other. -/
structure InTime (p q : Playback α) : Prop where
  script : p.script.InTime q.script
  index : p.index = q.index
  elapsed : p.elapsed = q.elapsed
  status : p.status = q.status
  active : p.active.isSome = q.active.isSome

end Playback

/-- In the course of a step of time the playbacks are in time with each other, and the step has
brought about the same. -/
structure Progress.InTime (s t : Progress α) : Prop where
  playback : s.playback.InTime t.playback
  step : s.step = t.step

/-! ## Scripts -/

theorem Keyframe.InTime.claim {k l : Keyframe α} (h : k.InTime l) : k.claim = l.claim := by
  unfold Keyframe.claim
  rw [h.follow]

theorem Keyframe.InTime.isCinematic {k l : Keyframe α} (h : k.InTime l) :
    k.isCinematic = l.isCinematic := by
  unfold Keyframe.isCinematic
  rw [h.follow]

namespace Script

variable {s t : Script α}

theorem InTime.refl (s : Script α) : s.InTime s :=
  ⟨List.forall₂_same.mpr fun _ _ => ⟨rfl, rfl⟩, rfl⟩

theorem InTime.length (h : s.InTime t) : s.length = t.length := h.keyframes.length_eq

theorem InTime.isEmpty (h : s.InTime t) : s.isEmpty = t.isEmpty := by
  have hlength : s.keyframes.length = t.keyframes.length := h.length
  rw [Script.isEmpty, Script.isEmpty, Bool.eq_iff_iff, List.isEmpty_iff_length_eq_zero,
    List.isEmpty_iff_length_eq_zero, hlength]

/-- At an index either both scripts have a keyframe, or neither has. -/
theorem InTime.keyframe (h : s.InTime t) (i : Nat) :
    s.keyframes[i]? = none ∧ t.keyframes[i]? = none ∨
      ∃ k l, s.keyframes[i]? = some k ∧ t.keyframes[i]? = some l ∧ k.InTime l := by
  have hlength : s.keyframes.length = t.keyframes.length := h.length
  by_cases hi : i < s.keyframes.length
  · have hi' : i < t.keyframes.length := hlength ▸ hi
    exact .inr ⟨_, _, List.getElem?_eq_getElem hi, List.getElem?_eq_getElem hi',
      h.keyframes.get hi hi'⟩
  · exact .inl ⟨List.getElem?_eq_none (by omega), List.getElem?_eq_none (by omega)⟩

end Script

/-! ## A step of time -/

namespace Progress

variable {s t : Progress α} {k l : Keyframe α} {roster others : Roster α}

/-- Both playbacks have a current keyframe, in time with each other, or neither has. -/
theorem InTime.current? (h : s.InTime t) :
    s.playback.current? = none ∧ t.playback.current? = none ∨
      ∃ k l, s.playback.current? = some k ∧ t.playback.current? = some l ∧ k.InTime l := by
  unfold Playback.current? Playback.isPlaying
  rw [← h.playback.status, ← h.playback.index]
  split
  · exact h.playback.script.keyframe _
  · exact .inl ⟨rfl, rfl⟩

variable [Kinematics α]

theorem InTime.setUp (h : s.InTime t) (hk : k.InTime l) :
    (s.setUp k roster).value.InTime (t.setUp l others).value where
  playback := { h.playback with active := rfl }
  step := by
    simp only [Progress.setUp, Logged.value_bind, Logged.value_pure]
    rw [h.step, h.playback.index, hk.claim]

/-- To go to an index leads both to their keyframe there, or neither. -/
theorem InTime.goTo (h : s.InTime t) (index : Nat) :
    (s.goTo index roster).value.InTime (t.goTo index others).value := by
  have hgone : Playback.InTime { s.playback with index, elapsed := 0.0, active := none }
      { t.playback with index, elapsed := 0.0, active := none } :=
    { h.playback with index := rfl, elapsed := rfl, active := rfl }
  unfold Progress.goTo
  dsimp only
  rcases h.playback.script.keyframe index with ⟨hs, ht⟩ | ⟨k, l, hs, ht, hk⟩
  · rw [hs, ht]
    exact ⟨hgone, h.step⟩
  · rw [hs, ht]
    exact InTime.setUp ⟨hgone, h.step⟩ hk

/-- Both end their keyframes in the same way. -/
theorem InTime.advance (h : s.InTime t) :
    (s.advance roster).value.InTime (t.advance others).value := by
  unfold Progress.advance
  dsimp only
  rw [← h.playback.index, ← h.playback.script.length, ← h.playback.script.looping]
  split
  · exact h.goTo _
  · split
    · exact h.goTo 0
    · exact ⟨{ h.playback with index := rfl, elapsed := rfl, active := rfl, status := rfl },
        congrArg (fun step : PlaybackStep => { step with finished := true }) h.step⟩

theorem InTime.advanceIf (h : s.InTime t) {isOver : Prop} [Decidable isOver] :
    (if isOver then s.advance roster else pure s).value.InTime
      (if isOver then t.advance others else pure t).value := by
  split
  · exact h.advance
  · exact h

/-- A body may be moved in any way. -/
theorem InTime.applyInstant (h : s.InTime t) : (s.applyInstant k).InTime (t.applyInstant l) :=
  ⟨h.playback, h.step⟩

/-- The keyframes are over after the same time. -/
theorem InTime.runTimed (h : s.InTime t) (hk : k.InTime l) (dt : α) :
    (s.runTimed k dt roster).value.InTime (t.runTimed l dt others).value := by
  have htimed : Playback.InTime { s.playback with elapsed := s.playback.elapsed + dt }
      { t.playback with elapsed := s.playback.elapsed + dt } :=
    { h.playback with elapsed := rfl }
  unfold Progress.runTimed
  dsimp only
  rw [← hk.isCinematic, ← hk.duration, ← h.playback.elapsed]
  split
  · -- the part of the keyframe that is over is the same, wherever the bodies are
    apply InTime.advanceIf
    split <;> split <;> exact ⟨htimed, h.step⟩
  · apply InTime.advanceIf
    exact ⟨htimed, congrArg (fun step : PlaybackStep => { step with delegated := true }) h.step⟩

/-- Keyframes that take no time are gone through in both alike. -/
theorem InTime.run (h : s.InTime t) (dt : α) (budget : Nat) :
    (s.run dt roster budget).value.InTime (t.run dt others budget).value := by
  induction budget generalizing s t with
  | zero =>
    unfold Progress.run
    rcases h.current? with ⟨hs, ht⟩ | ⟨k, l, hs, ht, hk⟩
    · rw [hs, ht]
      exact h
    · rw [hs, ht]
      dsimp only
      rw [← hk.duration]
      split
      · exact h
      · exact h.runTimed hk dt
  | succ budget ih =>
    unfold Progress.run
    rcases h.current? with ⟨hs, ht⟩ | ⟨k, l, hs, ht, hk⟩
    · rw [hs, ht]
      exact h
    · rw [hs, ht]
      dsimp only
      rw [← hk.duration]
      split
      · -- an instant keyframe moves the bodies, each in its own way, before the next one begins
        exact ih h.applyInstant.advance
      · exact h.runTimed hk dt

/-- A step begins in both alike. -/
theorem InTime.prepare (h : s.InTime t) :
    (s.prepare roster).value.InTime (t.prepare others).value := by
  have hactive := h.playback.active
  unfold Progress.prepare
  cases hs : s.playback.active with
  | some a =>
    rw [hs] at hactive
    obtain ⟨c, ht⟩ := Option.isSome_iff_exists.mp hactive.symm
    rw [ht]
    exact h
  | none =>
    rw [hs] at hactive
    have ht : t.playback.active = none := Option.not_isSome_iff_eq_none.mp (by simp [← hactive])
    rw [ht]
    rcases h.current? with ⟨hs, ht⟩ | ⟨k, l, hs, ht, hk⟩
    · rw [hs, ht]
      exact h
    · rw [hs, ht]
      exact h.setUp hk

end Progress

/-! ## Cues -/

namespace Playback

variable [Kinematics α] {p q : Playback α} {cue other : Cue α} {cues others : List (Cue α)}

theorem InTime.restart (h : p.InTime q) : p.restart.InTime q.restart where
  script := h.script
  index := rfl
  elapsed := rfl
  status := by
    unfold Playback.restart
    rw [h.script.isEmpty]
  active := rfl

theorem InTime.stop (h : p.InTime q) : p.stop.InTime q.stop :=
  ⟨h.script, h.index, rfl, rfl, rfl⟩

/-- A step of time brings both equally far, whatever bodies and rosters they are given. -/
theorem InTime.tick (h : p.InTime q) (dt : α) (b c : Body α) (roster others : Roster α) :
    (p.tick dt b roster).value.InTime (q.tick dt c others).value := by
  have hready : ((⟨p, b, .none⟩ : Progress α).prepare roster).value.InTime
      ((⟨q, c, .none⟩ : Progress α).prepare others).value := Progress.InTime.prepare ⟨h, rfl⟩
  unfold Playback.tick
  rw [Logged.value_bind, Logged.value_bind, h.script.length]
  exact hready.run _ _

/-- A cue of one kind keeps playbacks in time with each other and brings about the same. -/
theorem InTime.take (h : p.InTime q) (hcue : cue.InTime other) :
    (p.take cue).1.InTime (q.take other).1 ∧ (p.take cue).2 = (q.take other).2 := by
  cases hcue with
  | start s t scripts => exact ⟨InTime.restart { h with script := scripts }, rfl⟩
  | restart => exact ⟨h.restart, rfl⟩
  | stop => exact ⟨h.stop, rfl⟩
  | tick dt b c roster others =>
    have htick := h.tick dt b c roster others
    exact ⟨htick.playback, htick.step⟩

/-- Playbacks in time with each other show the same after all cues. -/
theorem InTime.readings (h : p.InTime q) (hcues : List.Forall₂ Cue.InTime cues others) :
    p.readings cues = q.readings others := by
  induction hcues generalizing p q with
  | nil => rfl
  | cons hcue _ ih =>
    obtain ⟨hafter, hstep⟩ := h.take hcue
    unfold Playback.readings
    dsimp only
    rw [hstep, hafter.index, hafter.elapsed, hafter.status, ih hafter]

/-- Two playbacks that get the same cues show the same after each of them: the scripts need only
agree in the durations of their keyframes, in who moves the rig during them and in whether they
start over, and each step of time may be given any body and any roster. -/
theorem readings_eq (hcues : List.Forall₂ Cue.InTime cues others) :
    (Playback.new : Playback α).readings cues = (Playback.new : Playback α).readings others :=
  InTime.readings ⟨.refl _, rfl, rfl, rfl, rfl⟩ hcues

/-- Three keyframes, the second of which takes no time, over and over. -/
def bareRound : Script Float32 where
  keyframes :=
    [{ Keyframe.still with duration := 1 }, Keyframe.still,
      { Keyframe.still with duration := 2, follow := some .strict }]
  looping := true

/-- The same keyframes, but each one leads to a place and looks at a player. -/
def stagedRound : Script Float32 where
  keyframes := bareRound.keyframes.map fun k =>
    { k with
      position := .absolute ⟨7, 0, 0⟩
      space := .body
      fov := some ⟨80, false⟩
      lookAt := .player "racer" true }
  looping := true

/-- Cues for a script that is stopped in its second round and started over. -/
def roundCues (script : Script Float32) (b : Body Float32) (roster : Roster Float32) :
    List (Cue Float32) :=
  [.start script, .tick ⟨1.5, b, roster⟩, .tick ⟨0.5, b, roster⟩, .tick ⟨2, b, roster⟩, .stop,
    .restart, .tick ⟨0.25, b, roster⟩]

/-- The two rounds, stopped halfway and started over, with other bodies and other rosters. -/
theorem readings_eq_staged :
    let bare := roundCues bareRound ⟨Pose.identity, Cameras.new 60⟩ .empty
    let grid : Roster Float32 :=
      ⟨[⟨"racer", false, some ⟨1⟩⟩], [(⟨⟨1⟩, .head⟩, Pose.identity)]⟩
    let staged := roundCues stagedRound ⟨⟨⟨1, 2, 3⟩, Quat.identity⟩, Cameras.new 90⟩ grid
    List.Forall₂ Cue.InTime bare staged ∧ new.readings bare = new.readings staged ∧
      (new.readings bare).map (fun reading => (reading.step.started, reading.index)) =
        [([], 0), ([0, 1], 1), ([2], 2), ([0], 0), ([], 0), ([], 0), ([0], 0)] := by
  intro bare grid staged
  have hscripts : bareRound.InTime stagedRound :=
    ⟨List.forall₂_map_right_iff.mpr (List.forall₂_same.mpr fun _ _ => ⟨rfl, rfl⟩), rfl⟩
  have hcues : List.Forall₂ Cue.InTime bare staged :=
    .cons (.start _ _ hscripts) (.cons (.tick _ _ _ _ _) (.cons (.tick _ _ _ _ _)
      (.cons (.tick _ _ _ _ _) (.cons .stop (.cons .restart (.cons (.tick _ _ _ _ _) .nil))))))
  exact ⟨hcues, readings_eq hcues, by decide +kernel⟩

end Playback

end Skycam
