import Skycam.Proofs.Playback.Count

/-!
# A playback never reads past its script

Here playback runs with every keyframe read by its index alone, at each place where one is needed:
`none` stands for a read at an index at which there is no keyframe. A playback that is playing has a
current keyframe in every state that it gets into (`Playback.Located`), so no read fails and the
result is that of the step of time (`Playback.tick?_eq`).
-/

namespace Skycam

variable {α : Type}

section Reads

variable [Kinematics α]

namespace Progress

/-- The keyframe at the present index. -/
def keyframe? (s : Progress α) : Option (Keyframe α) :=
  s.playback.script.keyframes[s.playback.index]?

/-- Makes the keyframe at the present index current. -/
def setUp? (s : Progress α) (roster : Roster α) : Option (Progress α) := do
  let k ← s.keyframe?
  return (s.setUp k roster).value

/-- The state at the beginning of the keyframe at `index`. -/
def movedTo (s : Progress α) (index : Nat) : Progress α :=
  { s with playback := { s.playback with index, elapsed := 0.0, active := none } }

/-- Ends the current keyframe. After the last one the script starts over, if it has any, or the
playback is finished. -/
def advance? (s : Progress α) (roster : Roster α) : Option (Progress α) :=
  let next := s.playback.index + 1
  if next < s.playback.script.length then (s.movedTo next).setUp? roster
  else if s.playback.script.looping && !s.playback.script.isEmpty then (s.movedTo 0).setUp? roster
  else
    let ended := s.movedTo s.playback.script.length
    some { ended with
      playback := { ended.playback with status := .finished }
      step := { s.step with finished := true } }

/-- Applies the current keyframe, which takes no time. -/
def applyInstant? (s : Progress α) : Option (Progress α) := do
  let k ← s.keyframe?
  return s.applyInstant k

/-- The state when the step of time has gone by, before it has had any effect. -/
def timed (s : Progress α) (dt : α) : Progress α :=
  { s with playback := { s.playback with elapsed := s.playback.elapsed + dt } }

/-- The state once the keyframe `k` belongs to a follow mode for this step of time. -/
def delegated (s : Progress α) : Progress α := { s with step := { s.step with delegated := true } }

/-- The state when the body is where it has to be when the part `t` of the keyframe `k` is over. -/
def moved (s : Progress α) (k : Keyframe α) (t dt : α) (roster : Roster α) : Progress α :=
  match s.playback.active with
  | some a => { s with body := a.moveBody k t dt roster s.body }
  | none => s

/-- Moves the body when the part `t` of the current keyframe is over. -/
def moveBody? (s : Progress α) (t dt : α) (roster : Roster α) : Option (Progress α) :=
  if s.playback.active.isNone then some s
  else do
    let k ← s.keyframe?
    return s.moved k t dt roster

/-- Lets time go by in the current keyframe, which takes some, and ends it when it is over. -/
def runTimed? (s : Progress α) (duration dt : α) (roster : Roster α) : Option (Progress α) := do
  let k ← (s.timed dt).keyframe?
  if k.isCinematic then
    let t := Scalar.clampUnit ((s.timed dt).playback.elapsed / duration)
    let moved ← (s.timed dt).moveBody? t dt roster
    if 1.0 ≤ t then moved.advance? roster else return moved
  else if duration ≤ (s.timed dt).playback.elapsed then (s.timed dt).delegated.advance? roster
  else return (s.timed dt).delegated

/-- Runs the current keyframe, which is set up if that has not been done, and those after it as long
as they take no time, `budget` of them at most. -/
def run? (dt : α) (roster : Roster α) : Nat → Progress α → Option (Progress α)
  | budget, s => do
    let ready ← if s.playback.active.isNone then s.setUp? roster else some s
    let k ← ready.keyframe?
    if k.duration ≤ 0.0 then
      match budget with
      | 0 => return ready
      | budget + 1 => do
        let applied ← ready.applyInstant?
        let next ← applied.advance? roster
        if next.playback.isPlaying then run? dt roster budget next else return next
    else ready.runTimed? k.duration dt roster

end Progress

namespace Playback

/-- Lets a step of time go by. -/
def tick? (p : Playback α) (dt : α) (body : Body α) (roster : Roster α) : Option (Progress α) :=
  if p.isPlaying then
    Progress.run? (Scalar.timeStep dt) roster p.script.length ⟨p, body, .none⟩
  else some ⟨p, body, .none⟩

end Playback

end Reads

namespace Playback

/-- A playback that is playing has a current keyframe. -/
def Located (p : Playback α) : Prop := p.status = .playing → p.index < p.script.length

theorem Located.plays {p : Playback α} (h : p.Located) (hplaying : p.status = .playing) :
    ∃ k, p.Plays k := by
  have hlt : p.index < p.script.length := h hplaying
  exact ⟨_, hplaying, hlt, List.getElem?_eq_getElem hlt⟩

theorem Plays.located {p : Playback α} {k : Keyframe α} (h : p.Plays k) : p.Located :=
  fun _ => h.2.1

theorem located_of_not_playing {p : Playback α} (h : p.status ≠ .playing) : p.Located :=
  fun hplaying => absurd hplaying h

theorem restart_located [Scalar α] (p : Playback α) : p.restart.Located := by
  intro hplaying
  cases hkeyframes : p.script.keyframes with
  | nil => simp [restart, Script.isEmpty, hkeyframes] at hplaying
  | cons k rest => simp [restart, Script.length, hkeyframes]

end Playback

namespace Progress

/-- Where a step of a playback has led: its keyframe is current and set up, or it is over. -/
def Onward (s : Progress α) : Prop :=
  s.playback.status = .playing → s.playback.active.isSome ∧ ∃ k, s.playback.Plays k

theorem Onward.located {s : Progress α} (h : s.Onward) : s.playback.Located := by
  intro hplaying
  obtain ⟨-, k, hk⟩ := h hplaying
  exact hk.2.1

section Reads

variable [Kinematics α] {s : Progress α} {k : Keyframe α} {roster : Roster α} {dt : α}

theorem setUp?_eq (hk : s.playback.Plays k) :
    s.setUp? roster = some (s.setUp k roster).value := by
  have hread : s.keyframe? = some k := hk.2.2
  simp [setUp?, hread]

theorem setUp_onward (hk : s.playback.Plays k) : (s.setUp k roster).value.Onward :=
  fun _ => ⟨rfl, k, hk⟩

/-- To go to an index within the script finds a keyframe there. -/
theorem goTo_eq {index : Nat} (hplaying : s.playback.status = .playing)
    (hindex : index < s.playback.script.length) :
    (s.movedTo index).setUp? roster = some (s.goTo index roster).value ∧
      (s.goTo index roster).value.Onward := by
  have hk : s.playback.script.keyframes[index]? = some s.playback.script.keyframes[index] :=
    List.getElem?_eq_getElem hindex
  have hplays : (s.movedTo index).playback.Plays s.playback.script.keyframes[index] :=
    ⟨hplaying, hindex, hk⟩
  have hgoTo : (s.goTo index roster).value =
      ((s.movedTo index).setUp s.playback.script.keyframes[index] roster).value := by
    simp [goTo, hk, movedTo]
  rw [hgoTo]
  exact ⟨setUp?_eq hplays, setUp_onward hplays⟩

/-- The end of a keyframe leads to one that is there, or to the end of the playback. -/
theorem advance?_eq (hk : s.playback.Plays k) :
    s.advance? roster = some (s.advance roster).value ∧ (s.advance roster).value.Onward := by
  obtain ⟨hplaying, hindex, -⟩ := hk
  have hempty : s.playback.script.isEmpty = false := by
    cases hkeyframes : s.playback.script.keyframes with
    | nil => simp [Script.length, hkeyframes] at hindex
    | cons first rest => simp [Script.isEmpty, hkeyframes]
  unfold advance? advance
  simp only [hempty, Bool.not_false, Bool.and_true]
  split
  · next hnext => exact goTo_eq hplaying hnext
  · split
    · exact goTo_eq hplaying (by omega)
    · exact ⟨rfl, fun hover => by cases hover⟩

/-- The end of a keyframe that may be over. -/
theorem advanceIf_eq (hk : s.playback.Plays k) (isOver : Prop) [Decidable isOver] :
    (if isOver then s.advance? roster else some s) =
        some (if isOver then s.advance roster else pure s).value ∧
      (if isOver then s.advance roster else pure s).value.playback.Located := by
  obtain ⟨heq, honward⟩ : s.advance? roster = _ ∧ _ := advance?_eq hk
  split
  · exact ⟨heq, honward.located⟩
  · exact ⟨rfl, hk.located⟩

/-- The body moves, and the playback stays where it is. -/
theorem moved_playback (t : α) : (s.moved k t dt roster).playback = s.playback := by
  unfold moved
  split <;> rfl

theorem moveBody?_eq (hk : s.playback.Plays k) (t : α) :
    s.moveBody? t dt roster = some (s.moved k t dt roster) := by
  have hread : s.keyframe? = some k := hk.2.2
  cases hactive : s.playback.active with
  | none => simp [moveBody?, moved, hactive]
  | some a => simp [moveBody?, moved, hactive, hread]

/-- A keyframe that takes time moves the body or is left to a follow mode, and ends when it is
over. -/
theorem runTimed_eq : s.runTimed k dt roster =
    if k.isCinematic then
      let t := Scalar.clampUnit ((s.timed dt).playback.elapsed / k.duration)
      if 1.0 ≤ t then ((s.timed dt).moved k t dt roster).advance roster
      else pure ((s.timed dt).moved k t dt roster)
    else if k.duration ≤ (s.timed dt).playback.elapsed then
      (s.timed dt).delegated.advance roster
    else pure (s.timed dt).delegated := by
  unfold runTimed
  by_cases hcinematic : k.isCinematic = true
  · cases hactive : s.playback.active <;> simp [hcinematic, moved, timed, hactive]
  · simp only [hcinematic, timed, delegated]
    rfl

/-- A keyframe that takes time reads no keyframe but the current one, and leads on to one that is
there. -/
theorem runTimed?_eq (hk : s.playback.Plays k) :
    s.runTimed? k.duration dt roster = some (s.runTimed k dt roster).value ∧
      (s.runTimed k dt roster).value.playback.Located := by
  have hread : (s.timed dt).keyframe? = some k := hk.2.2
  rw [runTimed_eq]
  by_cases hcinematic : k.isCinematic = true
  · let t := Scalar.clampUnit ((s.timed dt).playback.elapsed / k.duration)
    have htimed : (s.timed dt).playback.Plays k := hk
    have hmoved : (s.timed dt).moveBody? t dt roster =
        some ((s.timed dt).moved k t dt roster) := moveBody?_eq htimed t
    have hplays : ((s.timed dt).moved k t dt roster).playback.Plays k := by
      rw [moved_playback]
      exact hk
    simpa [runTimed?, hread, hcinematic, hmoved, t] using advanceIf_eq hplays (1.0 ≤ t)
  · have hplays : (s.timed dt).delegated.playback.Plays k := hk
    simpa [runTimed?, hread, hcinematic] using advanceIf_eq hplays _

/-- By induction on the budget, a chain of keyframes reads none that is not there. -/
theorem run?_eq (budget : Nat) (hk : s.playback.Plays k) (hactive : s.playback.active.isSome) :
    run? dt roster budget s = some (run dt roster budget s).value ∧
      (run dt roster budget s).value.playback.Located := by
  have hset : s.playback.active.isNone = false := by simp [hactive]
  have hread : s.keyframe? = some k := hk.2.2
  have hcurrent : s.playback.current? = some k := Playback.current?_eq_some_iff.mpr hk
  induction budget generalizing s k with
  | zero =>
    unfold run? run
    by_cases hinstant : k.duration ≤ 0.0
    · simpa [hset, hread, hcurrent, hinstant] using hk.located
    · simpa [hset, hread, hcurrent, hinstant] using runTimed?_eq hk
  | succ budget ih =>
    unfold run? run
    by_cases hinstant : k.duration ≤ 0.0
    · have happlied : (s.applyInstant k).playback.Plays k := hk
      obtain ⟨hadvance, honward⟩ : (s.applyInstant k).advance? roster = _ ∧ _ :=
        advance?_eq happlied
      have happly : s.applyInstant? = some (s.applyInstant k) := by simp [applyInstant?, hread]
      simp only [hset, hread, hcurrent, hinstant, happly, hadvance, if_true, Logged.value_bind,
        Option.bind_eq_bind, Option.bind_some, Bool.false_eq_true, if_false]
      generalize ((s.applyInstant k).advance roster).value = next at honward ⊢
      by_cases hplaying : next.playback.status = .playing
      · obtain ⟨hnextActive, k', hk'⟩ := honward hplaying
        have hrest := ih hk' hnextActive (by simp [hnextActive]) hk'.2.2
          (Playback.current?_eq_some_iff.mpr hk')
        simpa [Playback.isPlaying, hplaying] using hrest
      · have hover : (run dt roster budget next).value = next :=
          run_value_of_not_playing hplaying budget
        rw [hover]
        exact ⟨by simp [Playback.isPlaying, hplaying], Playback.located_of_not_playing hplaying⟩
    · simpa [hset, hread, hcurrent, hinstant] using runTimed?_eq hk

/-- A keyframe that has not been set up is set up first. -/
theorem run?_of_active_eq_none (budget : Nat) (hk : s.playback.Plays k)
    (hactive : s.playback.active = none) :
    run? dt roster budget s = run? dt roster budget (s.setUp k roster).value := by
  have hset : s.setUp? roster = some (s.setUp k roster).value := setUp?_eq hk
  have hready : (s.setUp k roster).value.playback.active.isNone = false := rfl
  unfold run?
  simp only [hactive, Option.isNone_none, if_true, hset, hready, Bool.false_eq_true, if_false]

end Reads

end Progress

namespace Playback

variable [Kinematics α] {p : Playback α}

/-- A step of time of a playback that has a current keyframe if it is playing reads no keyframe that
is not there, and leaves such a playback. -/
theorem tick?_eq (h : p.Located) (dt : α) (b : Body α) (roster : Roster α) :
    p.tick? dt b roster = some (p.tick dt b roster).value ∧
      (p.tick dt b roster).value.playback.Located := by
  by_cases hplaying : p.status = .playing
  · obtain ⟨k, hk⟩ := h.plays hplaying
    have hcurrent : p.current? = some k := current?_eq_some_iff.mpr hk
    have htick : p.tick? dt b roster =
        Progress.run? (Scalar.timeStep dt) roster p.script.length ⟨p, b, .none⟩ := by
      simp [tick?, isPlaying, hplaying]
    rw [htick]
    let start : Progress α := ⟨p, b, .none⟩
    cases hactive : p.active with
    | none =>
      have hready : (start.setUp k roster).value.playback.Plays k := hk
      have hprepare : start.prepare roster = start.setUp k roster := by
        simp [Progress.prepare, start, hactive, hcurrent]
      rw [Progress.run?_of_active_eq_none _ hk hactive]
      unfold tick
      rw [hprepare]
      exact Progress.run?_eq _ hready rfl
    | some a =>
      have hprepare : start.prepare roster = pure start := by
        simp [Progress.prepare, start, hactive]
      have hset : start.playback.active.isSome := by simp [start, hactive]
      unfold tick
      rw [hprepare]
      exact Progress.run?_eq _ hk hset
  · rw [tick_value_of_not_playing hplaying]
    exact ⟨by simp [tick?, isPlaying, hplaying], h⟩

end Playback

end Skycam
