import Skycam.Geometry.Rotation
import Skycam.Proofs.Playback.Chain

/-!
# The index of a playback stays within its script

No type says that the index of a playback names a keyframe, or that what is kept about an active
keyframe belongs to the script and the index beside it. Starting another script, stopping, and
ending the last keyframe each change one of them. They fit together nevertheless
(`Playback.Coherent`): an active keyframe was set up at the present index, since whatever moves the
index gives up the active keyframe first, and the index moves behind the end only when that
finishes the playback. So no keyframe is ever read where there is none
(`Playback.reachable_coherent`).
-/

namespace Skycam

variable {α : Type} [Kinematics α]

/-- The parts of a playback fit together. -/
structure Playback.Coherent (p : Playback α) : Prop where
  /-- A playback that is playing has a current keyframe. -/
  located : p.Located
  /-- A finished playback is behind the last keyframe of a script that does not loop. -/
  finished : p.status = .finished → p.script.looping = false ∧ p.index = p.script.length
  /-- What is kept about an active keyframe was found out about the current one. -/
  active : ∀ a, p.active = some a → ∃ k, p.Plays k ∧ ∃ b roster, a = k.begun b roster

namespace Playback

variable {p : Playback α}

theorem Coherent.elapse (h : p.Coherent) (elapsed : α) : Coherent { p with elapsed } :=
  ⟨h.located, h.finished, h.active⟩

/-- Before its keyframe is set up, a playback that is not finished needs only to be located. -/
theorem coherent_of_active_eq_none (hlocated : p.Located) (hstatus : p.status ≠ .finished)
    (hactive : p.active = none) : p.Coherent where
  located := hlocated
  finished hfinished := absurd hfinished hstatus
  active a ha := by
    rw [hactive] at ha
    cases ha

theorem new_coherent : (new : Playback α).Coherent :=
  coherent_of_active_eq_none (located_of_not_playing nofun) nofun rfl

theorem restart_coherent (p : Playback α) : p.restart.Coherent := by
  refine coherent_of_active_eq_none (restart_located p) ?_ rfl
  unfold restart
  dsimp only
  split <;> nofun

theorem stop_coherent (p : Playback α) : p.stop.Coherent :=
  coherent_of_active_eq_none (located_of_not_playing nofun) nofun rfl

end Playback

namespace Progress

variable {s t : Progress α} {k : Keyframe α} {roster : Roster α} {dt : α}

/-- What is kept about the keyframe was found out when it was set up. -/
theorem setUp_coherent (hk : s.playback.Plays k) : (s.setUp k roster).value.playback.Coherent where
  located := fun _ => hk.2.1
  finished hfinished := by
    have hplaying : (s.setUp k roster).value.playback.status = .playing := hk.1
    rw [hfinished] at hplaying
    cases hplaying
  active a ha := by
    have hbegun : some (k.begun s.body roster) = some a := ha
    exact ⟨k, hk, s.body, roster, (Option.some.inj hbegun).symm⟩

/-- To go to an index within the script sets up the keyframe there. -/
theorem goTo_coherent {index : Nat} (hplaying : s.playback.status = .playing)
    (hindex : index < s.playback.script.length) :
    (s.goTo index roster).value.playback.Coherent := by
  have hread : s.playback.script.keyframes[index]? = some s.playback.script.keyframes[index] :=
    List.getElem?_eq_getElem hindex
  unfold goTo
  dsimp only
  rw [hread]
  exact setUp_coherent (s := s.movedTo index) ⟨hplaying, hindex, hread⟩

/-- The end of a keyframe leads to another one within the script, or behind all of them. -/
theorem advance_coherent (hk : s.playback.Plays k) :
    (s.advance roster).value.playback.Coherent := by
  obtain ⟨hplaying, hindex, -⟩ := hk
  unfold advance
  dsimp only
  split
  · next hnext => exact goTo_coherent hplaying hnext
  · split
    · exact goTo_coherent hplaying (Nat.zero_lt_of_lt hindex)
    · next honce =>
      exact
        { located := Playback.located_of_not_playing nofun
          finished := fun _ => ⟨Bool.eq_false_iff.mpr honce, rfl⟩
          active := nofun }

theorem advanceIf_coherent (h : s.playback.Coherent) (hk : s.playback.Plays k) (isOver : Prop)
    [Decidable isOver] :
    (if isOver then s.advance roster else pure s).value.playback.Coherent := by
  split
  · exact advance_coherent hk
  · exact h

/-- A keyframe that takes time stays the current one until it is over. -/
theorem runTimed_coherent (h : s.playback.Coherent) (hk : s.playback.Plays k) :
    (s.runTimed k dt roster).value.playback.Coherent := by
  have htimed : (s.timed dt).playback.Coherent := h.elapse _
  have hplays : (s.timed dt).playback.Plays k := hk
  rw [runTimed_eq]
  split
  · refine advanceIf_coherent (k := k) ?_ ?_ _
    · rw [moved_playback]
      exact htimed
    · rw [moved_playback]
      exact hplays
  · exact advanceIf_coherent (s := (s.timed dt).delegated) htimed hplays _

theorem run_coherent (h : s.playback.Coherent) (budget : Nat) :
    (run dt roster budget s).value.playback.Coherent := by
  refine run_induction (P := fun s => s.playback.Coherent) ?_ ?_ budget h
  · intro s k _ hk
    exact advance_coherent (s := s.applyInstant k) hk
  · intro s k h hk
    exact runTimed_coherent h hk

theorem prepare_coherent (h : s.playback.Coherent) :
    (s.prepare roster).value.playback.Coherent := by
  unfold prepare
  split
  · next hk => exact setUp_coherent (Playback.current?_eq_some_iff.mp hk)
  · exact h

end Progress

namespace Playback

variable {p : Playback α}

theorem tick_coherent (h : p.Coherent) (dt : α) (b : Body α) (roster : Roster α) :
    (p.tick dt b roster).value.playback.Coherent :=
  Progress.run_coherent (Progress.prepare_coherent (s := ⟨p, b, .none⟩) h) _

/-- The parts of a playback fit together in every state that it gets into. -/
theorem Reachable.coherent (h : p.Reachable) : p.Coherent := by
  induction h with
  | new => exact new_coherent
  | start p script _ _ => exact restart_coherent { p with script }
  | restart p _ _ => exact restart_coherent p
  | stop p _ _ => exact stop_coherent p
  | tick p dt b roster _ ih => exact tick_coherent ih dt b roster

/-- However a playback was started, stopped and given time: while it is playing, its index is that
of a keyframe; when it is finished, its script does not loop and the index is behind the end; and
an active keyframe is the current one, from which all was found out that is kept about it. So a step
of time, whatever its length, reads every keyframe where there is one. -/
theorem reachable_coherent (h : p.Reachable) :
    (p.status = .playing → p.index < p.script.length) ∧
      (p.status = .finished → p.script.looping = false ∧ p.index = p.script.length) ∧
      (∀ a, p.active = some a → ∃ k, p.Plays k ∧ ∃ b roster, a = k.begun b roster) ∧
      ∀ dt b roster, p.tick? dt b roster = some (p.tick dt b roster).value := by
  obtain ⟨located, finished, active⟩ := h.coherent
  exact ⟨located, finished, active, fun dt b roster => (tick?_eq located dt b roster).1⟩

/-- A jump, a keyframe the duration of which is no number, and one that is never reached. -/
def endless : Script Float32 where
  keyframes :=
    [{ Keyframe.still with position := .absolute ⟨7, 0, 0⟩ },
      { Keyframe.still with position := .relative ⟨0, 10, 0⟩, duration := Single.nan },
      { Keyframe.still with follow := some .smooth, duration := 1 }]
  looping := false

/-- A keyframe that is never over stays current, and one after the last of a script is not read. -/
theorem reachable_coherent_endless :
    let b : Body Float32 := ⟨Pose.identity, Cameras.new 60⟩
    let p := ((new.start endless).tick 3e38 b .empty).value.playback
    let q := (((new.start endless).start ⟨endless.keyframes.take 1, false⟩).tick Single.nan b
      .empty).value.playback
    (p.Reachable ∧ p.status = .playing ∧ p.index = 1 ∧ p.active.isSome ∧ p.script.length = 3 ∧
      p.tick? 1 b .empty = some (p.tick 1 b .empty).value) ∧
    q.Reachable ∧ q.status = .finished ∧ q.index = q.script.length ∧
      q.tick? 1 b .empty = some (q.tick 1 b .empty).value := by
  intro b p q
  have hstarted : (new.start endless).Reachable := .start _ _ .new
  have hp : p.Reachable := .tick _ _ _ _ hstarted
  have hq : q.Reachable := .tick _ _ _ _ (.start _ _ hstarted)
  obtain ⟨-, -, -, hreads⟩ := reachable_coherent hp
  obtain ⟨-, hfinished, -, hnone⟩ := reachable_coherent hq
  have hstatus : q.status = .finished := by decide +kernel
  obtain ⟨-, hindex⟩ := hfinished hstatus
  exact ⟨⟨hp, by decide +kernel, by decide +kernel, by decide +kernel, by decide +kernel,
    hreads 1 b .empty⟩, hq, hstatus, hindex, hnone 1 b .empty⟩

end Playback

end Skycam
