import Skycam.Proofs.Playback.Current

/-!
# How many keyframes have become current

A keyframe becomes current at the beginning of a step of time, in a chain of keyframes without a
duration, at the end of one that has a duration, or when a chain that was cut short goes on. In all
these places it is the active keyframe alone that says whether the present one was set up before.
`Playback.Reached` counts the keyframes that have become current since the start, round after
round, and a step of time counts on from there (`Playback.tick_counts`).
-/

namespace Skycam

variable {α : Type}

/-! ## Counting keyframes -/

namespace Playback

/-- The present keyframe is number `n`, counted from 0 through all rounds of the script. -/
structure IsAt (script : Script α) (p : Playback α) (n : Nat) : Prop where
  isScript : p.script = script
  isPlaying : p.status = .playing
  index : p.index = n % script.length
  inRange : p.index < script.length
  inFirstRound : script.looping = false → n < script.length

/-- So many keyframes of the script have become current since the start. -/
inductive Reached (script : Script α) (p : Playback α) : Nat → Prop where
  /-- There is none. -/
  | idle (isScript : p.script = script) (isEmpty : script.length = 0) (isIdle : p.status = .idle) :
      Reached script p 0
  /-- The last of them is current. -/
  | current (n : Nat) (here : p.IsAt script n) (isActive : p.active.isSome) :
      Reached script p (n + 1)
  /-- All of them are over. -/
  | finished (isScript : p.script = script) (isOnce : script.looping = false)
      (isFinished : p.status = .finished) : Reached script p script.length

/-- So many keyframes have become current, and the next one may still have to be set up. -/
def Counts (script : Script α) (p : Playback α) (n : Nat) : Prop :=
  p.IsAt script n ∧ p.active = none ∨ p.Reached script n

variable {script : Script α} {n : Nat} {p : Playback α}

theorem Reached.elapse (h : p.Reached script n) (elapsed : α) :
    Reached script { p with elapsed } n := by
  cases h with
  | idle isScript isEmpty isIdle => exact .idle isScript isEmpty isIdle
  | current n here isActive => exact .current n { here with } isActive
  | finished isScript isOnce isFinished => exact .finished isScript isOnce isFinished

/-- While the playback goes on, the last keyframe that was counted is the present one. -/
theorem Reached.exists_isAt (h : p.Reached script n) (hplaying : p.status = .playing) :
    ∃ m, n = m + 1 ∧ p.IsAt script m ∧ p.active.isSome := by
  cases h with
  | idle _ _ isIdle =>
    rw [isIdle] at hplaying
    cases hplaying
  | current m here isActive => exact ⟨m, rfl, here, isActive⟩
  | finished _ _ isFinished =>
    rw [isFinished] at hplaying
    cases hplaying

/-- No keyframe of a script that does not loop is counted twice. -/
theorem Counts.le_length (h : p.Counts script n) (hlooping : script.looping = false) :
    n ≤ script.length := by
  rcases h with ⟨here, -⟩ | hreached
  · exact Nat.le_of_lt (here.inFirstRound hlooping)
  · cases hreached with
    | idle => exact Nat.zero_le _
    | current m here _ => exact here.inFirstRound hlooping
    | finished => exact Nat.le_refl _

theorem Counts.length_pos (h : p.Counts script n) (hn : n ≠ 0) : 0 < script.length := by
  rcases h with ⟨here, -⟩ | hreached
  · exact Nat.zero_lt_of_lt here.inRange
  · cases hreached with
    | idle => exact absurd rfl hn
    | current m here _ => exact Nat.zero_lt_of_lt here.inRange
    | finished => exact Nat.pos_of_ne_zero hn

/-- Only a script that does not loop finishes, and by then all its keyframes have been counted. -/
theorem Counts.of_finished (h : p.Counts script n) (hfinished : p.status = .finished) :
    script.looping = false ∧ n = script.length := by
  rcases h with ⟨here, -⟩ | hreached
  · have hplaying := here.isPlaying
    rw [hfinished] at hplaying
    cases hplaying
  · cases hreached with
    | idle _ _ isIdle =>
      rw [hfinished] at isIdle
      cases isIdle
    | current m here _ =>
      have hplaying := here.isPlaying
      rw [hfinished] at hplaying
      cases hplaying
    | finished _ isOnce _ => exact ⟨isOnce, rfl⟩

/-- The number after that of the present keyframe, as an index into the script. -/
theorem IsAt.succ_mod (h : p.IsAt script n) : (n + 1) % script.length =
    if p.index + 1 < script.length then p.index + 1 else 0 := by
  rw [← Nat.mod_add_mod, ← h.index]
  split
  · next hlt => exact Nat.mod_eq_of_lt hlt
  · next hge =>
    have hlast : p.index + 1 = script.length := by
      have hrange := h.inRange
      omega
    rw [hlast, Nat.mod_self]

theorem IsAt.index_eq (h : p.IsAt script n) (hlooping : script.looping = false) : p.index = n := by
  rw [h.index]
  exact Nat.mod_eq_of_lt (h.inFirstRound hlooping)

theorem IsAt.exists_plays (h : p.IsAt script n) : ∃ k, p.Plays k := by
  have hrange : p.index < p.script.keyframes.length := by
    rw [h.isScript]
    exact h.inRange
  exact ⟨p.script.keyframes[p.index], h.isPlaying, hrange, List.getElem?_eq_getElem hrange⟩

/-- At the start the first keyframe is the present one, if there is one, and none was set up. -/
theorem restart_counts [Scalar α] (p : Playback α) : p.restart.Counts p.script 0 := by
  by_cases hempty : p.script.isEmpty = true
  · have hlength : p.script.length = 0 := by
      simpa [Script.isEmpty, Script.length] using hempty
    exact Or.inr (.idle rfl hlength (by simp [restart, hempty]))
  · have hlength : 0 < p.script.length := by
      simpa [Script.isEmpty, Script.length, List.length_pos_iff] using hempty
    have here : p.restart.IsAt p.script 0 :=
      { isScript := rfl
        isPlaying := by simp [restart, hempty]
        index := (Nat.zero_mod _).symm
        inRange := hlength
        inFirstRound := fun _ => hlength }
    exact Or.inl ⟨here, rfl⟩

end Playback

/-! ## A step of time -/

/-- The step tells of `count` keyframes of the script, from number `n` on, and claims the rig as the
last of them does. -/
structure PlaybackStep.Names (script : Script α) (n count : Nat) (step : PlaybackStep) : Prop where
  started : step.started = (List.range' n count).map (· % script.length)
  claimed : step.claimed =
    step.started.getLast?.bind fun i => script.keyframes[i]?.map Keyframe.claim

theorem PlaybackStep.none_names (script : Script α) (n : Nat) :
    PlaybackStep.none.Names script n 0 := ⟨rfl, rfl⟩

/-- The claim of a step is that of the last keyframe of which it tells. -/
theorem PlaybackStep.Names.claimed_of_getLast? {script : Script α} {n count : Nat}
    {step : PlaybackStep} (h : step.Names script n count)
    (hlength : count ≠ 0 → 0 < script.length) {i : Nat} (hi : step.started.getLast? = some i) :
    ∃ k, script.keyframes[i]? = some k ∧ step.claimed = some k.claim := by
  have hmem : i ∈ step.started := List.mem_of_getLast? hi
  rw [h.started] at hmem
  obtain ⟨m, hm, rfl⟩ := List.mem_map.mp hmem
  have hcount : count ≠ 0 := by
    rintro rfl
    cases hm
  have hrange : m % script.length < script.keyframes.length := Nat.mod_lt m (hlength hcount)
  refine ⟨script.keyframes[m % script.length], List.getElem?_eq_getElem hrange, ?_⟩
  rw [h.claimed, hi, Option.bind_some, List.getElem?_eq_getElem hrange, Option.map_some]

/-- A step claims the rig if and only if it tells of a keyframe. -/
theorem PlaybackStep.Names.claimed_eq_none_iff {script : Script α} {n count : Nat}
    {step : PlaybackStep} (h : step.Names script n count)
    (hlength : count ≠ 0 → 0 < script.length) : step.claimed = Option.none ↔ step.started = [] := by
  cases hlast : step.started.getLast? with
  | none => simp [h.claimed, List.getLast?_eq_none_iff.mp hlast]
  | some i =>
    obtain ⟨k, -, hclaimed⟩ := h.claimed_of_getLast? hlength hlast
    have hstarted : step.started ≠ [] := by
      rintro hnil
      simp [hnil] at hlast
    simp [hclaimed, hstarted]

/-- In the course of a step of time that began after `n` keyframes, `count` more have become
current, of which the step tells. -/
structure Progress.Tells (script : Script α) (n count : Nat) (s : Progress α) : Prop where
  reached : s.playback.Reached script (n + count)
  names : s.step.Names script n count
  finished : s.step.finished = true ↔ s.playback.status = .finished

namespace Progress

variable {script : Script α} {n count : Nat} {s : Progress α}

/-- Time may go by and the body may move, as long as nothing is told. -/
theorem Tells.pass (h : s.Tells script n count) {t : Progress α}
    (hplayback : t.playback = { s.playback with elapsed := t.playback.elapsed })
    (hstep : t.step = { s.step with delegated := t.step.delegated }) :
    t.Tells script n count where
  reached := by
    rw [hplayback]
    exact h.reached.elapse _
  names := by
    rw [hstep]
    exact ⟨h.names.started, h.names.claimed⟩
  finished := by
    rw [hplayback, hstep]
    exact h.finished

section Steps

variable [Kinematics α] {k : Keyframe α} {roster : Roster α}

/-- Setting up the present keyframe, which was not told of before, tells of it. -/
theorem Tells.setUp (here : s.playback.IsAt script (n + count))
    (names : s.step.Names script n count) (isOpen : s.step.finished = false)
    (hk : s.playback.Plays k) : (s.setUp k roster).value.Tells script n (count + 1) where
  reached := .current (n + count) { here with } rfl
  names := by
    have hstarted : (s.setUp k roster).value.step.started =
        s.step.started ++ [(n + count) % script.length] := by
      rw [← here.index]
      rfl
    have hkeyframe : script.keyframes[(n + count) % script.length]? = some k := by
      rw [← here.index, ← here.isScript]
      exact hk.2.2
    constructor
    · rw [hstarted, names.started, List.range'_1_concat, List.map_append]
      rfl
    · rw [hstarted, List.getLast?_concat, Option.bind_some, hkeyframe]
      rfl
  finished := by
    have hplaying : (s.setUp k roster).value.playback.status = .playing := here.isPlaying
    have hopen : (s.setUp k roster).value.step.finished = false := isOpen
    simp [hplaying, hopen]

/-- Going on to the keyframe that comes next in order tells of it. -/
theorem Tells.goTo {index : Nat}
    (here : Playback.IsAt script { s.playback with index, elapsed := 0.0, active := none }
      (n + count))
    (names : s.step.Names script n count) (isOpen : s.step.finished = false) :
    (s.goTo index roster).value.Tells script n (count + 1) := by
  obtain ⟨k, hplays⟩ := here.exists_plays
  have hk : s.playback.script.keyframes[index]? = some k := hplays.2.2
  unfold Progress.goTo
  dsimp only
  rw [hk]
  exact Tells.setUp here names isOpen hplays

/-- After the present keyframe comes the next one in order, or the script is over. -/
theorem Tells.advance (h : s.Tells script n count) (hplaying : s.playback.status = .playing) :
    ∃ more, (s.advance roster).value.Tells script n (count + more) := by
  obtain ⟨m, hm, here, -⟩ := h.reached.exists_isAt hplaying
  have hopen : s.step.finished = false := by
    rw [← Bool.not_eq_true, h.finished, hplaying]
    simp
  have hnext := here.succ_mod
  rw [← hm] at hnext
  have hrange := here.inRange
  unfold Progress.advance
  dsimp only
  rw [here.isScript]
  by_cases hlast : s.playback.index + 1 < script.length
  · rw [if_pos hlast] at hnext ⊢
    refine ⟨1, Tells.goTo ⟨here.isScript, hplaying, hnext.symm, hlast, fun hlooping => ?_⟩
      h.names hopen⟩
    rw [here.index_eq hlooping] at hlast
    omega
  · rw [if_neg hlast] at hnext ⊢
    cases hlooping : script.looping with
    | true =>
      have hfirst : 0 < script.length := by omega
      refine ⟨1, Tells.goTo ⟨here.isScript, hplaying, hnext.symm, hfirst, fun honce => ?_⟩
        h.names hopen⟩
      rw [hlooping] at honce
      cases honce
    | false =>
      have hall : n + count = script.length := by
        have hround := here.inFirstRound hlooping
        rw [here.index_eq hlooping] at hlast
        omega
      rw [if_neg Bool.false_ne_true]
      refine ⟨0, ⟨?_, ⟨h.names.started, h.names.claimed⟩, by simp⟩⟩
      rw [Nat.add_zero, hall]
      exact .finished rfl hlooping rfl

theorem Tells.advanceIf (h : s.Tells script n count) (hplaying : s.playback.status = .playing)
    {isOver : Prop} [Decidable isOver] :
    ∃ more, (if isOver then s.advance roster else pure s).value.Tells script n (count + more) := by
  split
  · exact h.advance hplaying
  · exact ⟨0, h⟩

/-- In a keyframe that takes time, what more becomes current is told. -/
theorem Tells.runTimed (h : s.Tells script n count) (hplaying : s.playback.status = .playing)
    {dt : α} : ∃ more, (s.runTimed k dt roster).value.Tells script n (count + more) := by
  unfold Progress.runTimed
  dsimp only
  split
  · apply Tells.advanceIf
    · split <;> exact h.pass rfl rfl
    · split <;> exact hplaying
  · apply Tells.advanceIf
    · exact h.pass rfl rfl
    · exact hplaying

/-- All that becomes current in the course of the step is told. -/
theorem Tells.run {dt : α} (budget : Nat) (h : s.Tells script n count) :
    ∃ more, (Progress.run dt roster budget s).value.Tells script n (count + more) := by
  refine run_induction (P := fun s => ∃ more, s.Tells script n (count + more)) ?_ ?_ budget ⟨0, h⟩
  · rintro s k ⟨before, htells⟩ hk
    have hinstant : (s.applyInstant k).Tells script n (count + before) := htells.pass rfl rfl
    obtain ⟨more, hmore⟩ : ∃ more, ((s.applyInstant k).advance roster).value.Tells script n
        (count + before + more) := hinstant.advance hk.1
    exact ⟨before + more, by rwa [← Nat.add_assoc]⟩
  · rintro s k ⟨before, htells⟩ hk
    obtain ⟨more, hmore⟩ : ∃ more, (s.runTimed k dt roster).value.Tells script n
        (count + before + more) := htells.runTimed hk.1
    exact ⟨before + more, by rwa [← Nat.add_assoc]⟩

theorem run_value_of_not_playing {dt : α} (h : s.playback.status ≠ .playing) (budget : Nat) :
    (s.run dt roster budget).value = s := by
  have hcurrent : s.playback.current? = none := by
    simp [Playback.current?, Playback.isPlaying, h]
  unfold Progress.run
  rw [hcurrent]
  rfl

end Steps

end Progress

namespace Playback

variable [Kinematics α] {script : Script α} {n : Nat} {p : Playback α}

/-- A playback that is not playing stays as it is, and so does the body. -/
theorem tick_value_of_not_playing (h : p.status ≠ .playing) (dt : α) (b : Body α)
    (roster : Roster α) : (p.tick dt b roster).value = ⟨p, b, .none⟩ := by
  have hready : (Progress.prepare ⟨p, b, .none⟩ roster).value = ⟨p, b, .none⟩ := by
    unfold Progress.prepare
    split
    · next hk => simp [current?, isPlaying, h] at hk
    · rfl
  unfold tick
  rw [Logged.value_bind, hready]
  exact Progress.run_value_of_not_playing h _

/-- A step of time begins with the present keyframe, if that was not set up, and goes on from
there. -/
theorem tick_tells (h : p.Counts script n) (hplaying : p.status = .playing) (dt : α) (b : Body α)
    (roster : Roster α) : ∃ count, (p.tick dt b roster).value.Tells script n count ∧
      (p.active = none → count ≠ 0) := by
  have hready : ∃ first,
      (Progress.prepare ⟨p, b, .none⟩ roster).value.Tells script n first ∧
        (p.active = none → first ≠ 0) := by
    rcases h with ⟨here, hactive⟩ | hreached
    · obtain ⟨k, hk⟩ := here.exists_plays
      have hcurrent : p.current? = some k := current?_eq_some_iff.mpr hk
      unfold Progress.prepare
      rw [hactive, hcurrent]
      exact ⟨1, .setUp here (PlaybackStep.none_names script n) rfl hk, fun _ => Nat.one_ne_zero⟩
    · obtain ⟨-, -, -, hactive⟩ := hreached.exists_isAt hplaying
      have hsome : p.active ≠ none := Option.isSome_iff_ne_none.mp hactive
      refine ⟨0, ?_, fun hnone => absurd hnone hsome⟩
      unfold Progress.prepare
      split
      · next hnone _ => exact absurd hnone hsome
      · exact ⟨hreached, PlaybackStep.none_names script n, by simp [PlaybackStep.none, hplaying]⟩
  obtain ⟨first, hfirst, hcount⟩ := hready
  have hrun : ∃ more, (p.tick dt b roster).value.Tells script n (first + more) :=
    hfirst.run p.script.length
  obtain ⟨more, hmore⟩ := hrun
  exact ⟨first + more, hmore, fun hactive hzero => hcount hactive (by omega)⟩

/-- A step of time counts on from the keyframes before it. -/
theorem tick_counts (h : p.Counts script n) (dt : α) (b : Body α) (roster : Roster α) :
    ∃ count, (p.tick dt b roster).value.playback.Counts script (n + count) ∧
      (p.tick dt b roster).value.step.Names script n count ∧
      ((p.tick dt b roster).value.step.finished = true →
        (p.tick dt b roster).value.playback.status = .finished) := by
  by_cases hplaying : p.status = .playing
  · obtain ⟨count, htells, -⟩ := tick_tells h hplaying dt b roster
    exact ⟨count, Or.inr htells.reached, htells.names, htells.finished.mp⟩
  · rw [tick_value_of_not_playing hplaying]
    refine ⟨0, h, PlaybackStep.none_names script n, fun hfinished => ?_⟩
    cases hfinished

end Playback

end Skycam
