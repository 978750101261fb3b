import Skycam.Proofs.Fleet.Update
import Skycam.Proofs.Playback.Count

/-!
# Rigs that nothing moves

A rig that is given to its script and plays no keyframe is moved neither by its script nor by a
follow mode. The only part of an update that still reaches it is the look for a lost target: the rig
goes if the last look is in vain, and it is put behind the target if a look finds it. In every other
update all of the rig stays as it is, but for the clock of the wait (`Rig.Still.aged_eq`).
-/

namespace Skycam

/-- The target after a step of time in which it is not found: the clock of a wait has gone on, and
any other target is the same. -/
def Target.elapse (dt : Float32) : Target → Target
  | recovering username timer => recovering username (timer.advance dt).2
  | target => target

theorem Target.elapse_of_not_recovering {target : Target} (h : target.isRecovering = false)
    (dt : Float32) : target.elapse dt = target := by
  cases target with
  | unbound | bound => rfl
  | recovering => cases h

namespace Rig

/-- The rig is given to its script, and no keyframe is being played. -/
structure Still (r : Rig) : Prop where
  cinematic : r.control = .cinematic
  notPlaying : r.playback.status ≠ .playing

/-- The rig waits for its target, a look at the roster is due, and the handle by which the first
player of that name is followed has a finite pose. -/
def FindsTarget (dt : Float32) (roster : Roster Float32) (r : Rig) : Prop :=
  ∃ username timer, r.target = .recovering username timer ∧ (timer.advance dt).1 ≠ .wait ∧
    ∃ e handle pose, roster.find? username = some e ∧ e.followHandle? = some handle ∧
      roster.pose? handle = some pose ∧ pose.isFinite = true

variable {config : Config} {dt : Float32} {roster : Roster Float32} {r : Rig}

theorem runPlayback_value_of_not_playing (h : r.playback.status ≠ .playing) :
    (r.runPlayback config dt roster).value = r := by
  have hstep := Playback.tick_value_of_not_playing h dt r.body roster
  simp [runPlayback, hstep, afterPlayback, PlaybackStep.none]

theorem runFollow_value_of_cinematic (h : r.control = .cinematic) :
    (r.runFollow config dt roster).value = r := by
  simp [runFollow, h]

/-- Nothing comes after the look for a lost target. -/
theorem Still.aged_eq_of_poll {ready : Rig} (h : ready.Still)
    (hpoll : (r.pollRecovery config dt roster).value = (ready, none)) :
    r.aged config dt roster = ready := by
  rw [aged, tick_value_of_poll_none hpoll, runPlayback_value_of_not_playing h.notPlaying]
  exact runFollow_value_of_cinematic h.cinematic

theorem Still.waited (h : r.Still) (username : String) (timer : RecoveryTimer Float32) :
    (r.waited username timer dt).Still :=
  ⟨h.cinematic, h.notPlaying⟩

theorem Still.aged_eq_of_not_recovering (h : r.Still) (hnot : r.target.isRecovering = false) :
    r.aged config dt roster = r :=
  h.aged_eq_of_poll (pollRecovery_value_of_not_recovering hnot)

/-- The player who is found has a live entity with a finite pose. -/
theorem FindsTarget.of_sighted {username : String} {timer : RecoveryTimer Float32}
    (waits : r.target = .recovering username timer) (isDue : (timer.advance dt).1 ≠ .wait)
    (hsighted : roster.sighted? username ≠ none) : r.FindsTarget dt roster := by
  obtain ⟨⟨e, handle, pose⟩, hfound⟩ := Option.ne_none_iff_exists'.mp hsighted
  obtain ⟨hfind, hbind⟩ := Roster.sighted?_eq_some_iff.mp hfound
  obtain ⟨hhandle, hpose, hfinite⟩ := Roster.bindable?_eq_some_iff.mp hbind
  exact ⟨username, timer, waits, isDue, e, handle, pose, hfind, hhandle, hpose, hfinite⟩

/-- A step of time in which the rig does not find its target leaves all of it as it is, but for the
clock of its wait. -/
theorem Still.aged_eq (h : r.Still) (hnot : ¬r.FindsTarget dt roster) :
    r.aged config dt roster = { r with target := r.target.elapse dt } := by
  cases htarget : r.target with
  | unbound | bound =>
    have hrecovering : r.target.isRecovering = false := by simp [htarget, Target.isRecovering]
    rw [h.aged_eq_of_not_recovering hrecovering, ← htarget,
      Target.elapse_of_not_recovering hrecovering]
  | recovering username timer =>
    have hwaited : { r with target := (Target.recovering username timer).elapse dt } =
        r.waited username timer dt := rfl
    have hpoll : (r.pollRecovery config dt roster).value = _ :=
      pollRecovery_value_of_recovering htarget
    rw [hwaited]
    cases hsighted : roster.sighted? username with
    | some found =>
      have hwait : (timer.advance dt).1 = .wait := by
        by_contra hdue
        exact hnot (.of_sighted htarget hdue (by simp [hsighted]))
      rw [hwait] at hpoll
      exact (h.waited username timer).aged_eq_of_poll hpoll
    | none =>
      rw [hsighted] at hpoll
      cases hdue : (timer.advance dt).1 with
      | wait | poll =>
        rw [hdue] at hpoll
        exact (h.waited username timer).aged_eq_of_poll hpoll
      | final =>
        rw [hdue] at hpoll
        rw [aged, tick_value_of_poll_some hpoll]

end Rig

namespace Fleet

variable {f : Fleet} {r : Rig} {dt : Float32} {roster : Roster Float32}

theorem update_ids_nodup (hn : f.ids.Nodup) : (f.update dt roster).value.ids.Nodup := by
  rw [update_ids]
  exact hn.sublist (List.filter_sublist.map _)

/-- A rig that stays is found under its name as the step of time has left it. -/
theorem update_rig? (hn : f.ids.Nodup) (hr : r ∈ f.rigs)
    (hstays : r.expires f.config dt roster = false) :
    (f.update dt roster).value.rig? r.id = some (r.aged f.config dt roster).delivered := by
  have hmem : (r.aged f.config dt roster).delivered ∈ (f.update dt roster).value.rigs := by
    rw [update_rigs]
    exact List.mem_map_of_mem (List.mem_filter.mpr ⟨hr, by simp [hstays]⟩)
  have hid : (r.aged f.config dt roster).delivered.id = r.id := Rig.aged_id
  rw [← hid]
  exact rig?_id_of_mem (update_ids_nodup hn) hmem

/-- The updates for some steps of time, as a run. -/
def updates (steps : List (Float32 × Roster Float32)) : List (Operation × Roster Float32) :=
  steps.map fun (dt, roster) => (.update dt, roster)

/-- A rig that nothing moves and that does not wait stays as it is through any number of updates,
which deliver its events. -/
theorem run_updates_still (hn : f.ids.Nodup) (hr : r ∈ f.rigs) (still : r.Still)
    (notWaiting : r.target.isRecovering = false) (steps : List (Float32 × Roster Float32)) :
    ∃ r', (f.run (updates steps)).rig? r.id = some r' ∧ r'.delivered = r.delivered := by
  induction steps generalizing f r with
  | nil => exact ⟨r, rig?_id_of_mem hn hr, rfl⟩
  | cons step rest ih =>
    obtain ⟨dt, roster⟩ := step
    have hstays : r.expires f.config dt roster = false := by
      refine Bool.eq_false_iff.mpr fun hexpires => ?_
      obtain ⟨username, timer, htarget, -⟩ := Rig.expires_iff.mp hexpires
      simp [htarget, Target.isRecovering] at notWaiting
    have hupdated := update_rig? hn hr hstays
    rw [still.aged_eq_of_not_recovering notWaiting] at hupdated
    obtain ⟨hmem, -⟩ := rig?_eq_some hupdated
    have hstill : r.delivered.Still := ⟨still.cinematic, still.notPlaying⟩
    have hrest : ∃ r', ((f.update dt roster).value.run (updates rest)).rig? r.delivered.id =
        some r' ∧ r'.delivered = r.delivered.delivered :=
      ih (update_ids_nodup hn) hmem hstill notWaiting
    exact hrest

/-- After every run, an update takes a rig that nothing moves away just if it has waited in vain. If
the rig stays and does not find its target, all of it stays, with its pose and its cameras, but for
the clock of its wait, which has gone on, and its events, which are delivered. While it does not
wait, it stays so through any number of updates. -/
theorem run_still (config : Config) (ops : List (Operation × Roster Float32)) (r : Rig)
    (isOpen : r ∈ ((Fleet.new config).run ops).rigs) (still : r.Still) :
    let f := (Fleet.new config).run ops
    (∀ dt roster, r.id ∉ (f.update dt roster).value.ids ↔ r.WaitsInVain dt roster) ∧
      (∀ dt roster, ¬r.WaitsInVain dt roster → ¬r.FindsTarget dt roster →
        (f.update dt roster).value.rig? r.id =
          some { r with target := r.target.elapse dt, events := [] }) ∧
      (r.target.isRecovering = false → ∀ steps,
        ∃ r', (f.run (updates steps)).rig? r.id = some r' ∧ r'.delivered = r.delivered) := by
  intro f
  have hn : f.ids.Nodup := run_nodup config ops
  refine ⟨fun dt roster => ?_, fun dt roster hstays hfinds => ?_, run_updates_still hn isOpen still⟩
  · rw [mem_update_ids_iff hn dt roster isOpen, Bool.not_eq_false, Rig.expires_iff]
  · have hexpires : r.expires f.config dt roster = false :=
      Bool.eq_false_iff.mpr fun hexpires => hstays (Rig.expires_iff.mp hexpires)
    rw [update_rig? hn isOpen hexpires, still.aged_eq hfinds]
    rfl

/-- A run in which a rig that waits for its target is given to its script, which puts it somewhere
else and is over. -/
def handoverRun : List (Operation × Roster Float32) :=
  lostRun "racer" ++
    [(.setCinematic ⟨"cam"⟩ true true (some "setposition 0 5 -10\nsetfov 30\ntime 0"), .empty),
      (.update 0.0, .empty)]

/-- Half of the time to the next look goes by, and nothing but the clock has moved. -/
theorem run_still_handoverRun :
    ∃ r, ((Fleet.new .standard).run handoverRun).rigs = [r] ∧ r.Still ∧
      ¬r.WaitsInVain 0.125 (.lone "racer") ∧ ¬r.FindsTarget 0.125 (.lone "racer") ∧
      (((Fleet.new .standard).run handoverRun).update 0.125 (.lone "racer")).value.rig? r.id =
        some { r with
          target := .recovering "racer" ((RecoveryTimer.new 0.25 3.0).advance 0.125).2
          events := [] } := by
  have hstates : ((Fleet.new .standard).run handoverRun).rigs.map
      (fun r => (r.control, r.playback.status, r.target)) =
      [(.cinematic, .finished, .recovering "racer" (.new 0.25 3.0))] := by decide +kernel
  have hstill := run_still .standard handoverRun
  -- from here on the fleet must not be computed any more
  generalize (Fleet.new .standard).run handoverRun = f at hstates hstill ⊢
  obtain ⟨r, hr, hstate⟩ := List.map_eq_singleton_iff.mp hstates
  simp only [Prod.mk.injEq] at hstate
  obtain ⟨hcontrol, hstatus, htarget⟩ := hstate
  have hwait : ((RecoveryTimer.new 0.25 3.0 : RecoveryTimer Float32).advance 0.125).1 = .wait := by
    decide +kernel
  have hmem : r ∈ f.rigs := by simp [hr]
  have still : r.Still := ⟨hcontrol, by simp [hstatus]⟩
  have hvain : ¬r.WaitsInVain 0.125 (.lone "racer") := by
    rintro ⟨username, timer, hwaits, hfinal, -⟩
    rw [htarget] at hwaits
    cases hwaits
    rw [hwait] at hfinal
    cases hfinal
  have hfinds : ¬r.FindsTarget 0.125 (.lone "racer") := by
    rintro ⟨username, timer, hwaits, hdue, -⟩
    rw [htarget] at hwaits
    cases hwaits
    exact hdue hwait
  have hafter := (hstill r hmem still).2.1 0.125 (.lone "racer") hvain hfinds
  rw [htarget] at hafter
  exact ⟨r, hr, still, hvain, hfinds, hafter⟩

/-- A look at the roster reaches a rig that nothing else moves. The last one in vain takes the rig
away, and one that finds the target puts the rig behind it and sets the field of view. -/
theorem update_moves_still :
    ∃ r, ((Fleet.new .standard).run handoverRun).rigs = [r] ∧ r.Still ∧
      r.id ∉ (((Fleet.new .standard).run handoverRun).update 60.0 .empty).value.ids ∧
      ∃ r', (((Fleet.new .standard).run handoverRun).update 0.25
          (.lone "racer")).value.rig? r.id = some r' ∧
        (r.body.pose.position = ⟨0.0, 5.0, -10.0⟩ ∧ r.body.cameras.fov = 30.0) ∧
        r'.body.pose.position = ⟨0.0, 2.0, -3.0⟩ ∧ r'.body.cameras.fov = 60.0 := by
  have hbefore : ((Fleet.new .standard).run handoverRun).rigs.map
      (fun r => (r.id, r.control, r.playback.status, r.body.pose.position, r.body.cameras.fov)) =
      [(⟨"cam"⟩, .cinematic, .finished, ⟨0.0, 5.0, -10.0⟩, 30.0)] := by decide +kernel
  have hgone : (((Fleet.new .standard).run handoverRun).update 60.0 .empty).value.ids = [] := by
    decide +kernel
  have hafter : ((((Fleet.new .standard).run handoverRun).update 0.25 (.lone "racer")).value.rig?
      ⟨"cam"⟩).map (fun r => (r.body.pose.position, r.body.cameras.fov)) =
      some (⟨0.0, 2.0, -3.0⟩, 60.0) := by decide +kernel
  obtain ⟨r, hr, hstate⟩ := List.map_eq_singleton_iff.mp hbefore
  obtain ⟨r', hr', hmoved⟩ := Option.map_eq_some_iff.mp hafter
  simp only [Prod.mk.injEq] at hstate hmoved
  obtain ⟨hid, hcontrol, hstatus, hposition, hfov⟩ := hstate
  rw [← hid] at hr'
  exact ⟨r, hr, ⟨hcontrol, by simp [hstatus]⟩, by simp [hgone], r', hr', ⟨hposition, hfov⟩, hmoved⟩

end Fleet

end Skycam
