import Skycam.Proofs.Playback.Count

/-!
# Keyframes start in order

Whatever time goes by and whatever happens to the body and to the roster meanwhile, a playback that
was started tells of its keyframes one after the other, round after round, and of the end of its
script once (`Playback.play_toldInOrder`). A run of steps counts on from step to step, so each part
of this is an induction on the run that starts at an arbitrary count.
-/

namespace Skycam

variable {α : Type}

/-- What a step of time is given: its length, the body as it is by then, and the roster. -/
structure Moment (α : Type) where
  dt : α
  body : Body α
  roster : Roster α

namespace Playback

/-- The steps of time that a playback goes through, one for each moment. -/
def play [Kinematics α] (p : Playback α) : List (Moment α) → List (Progress α)
  | [] => []
  | m :: rest =>
    let s := (p.tick m.dt m.body m.roster).value
    s :: s.playback.play rest

end Playback

/-- The indices of the keyframes of which some steps tell. -/
def startedIn (steps : List (Progress α)) : List Nat := steps.flatMap (·.step.started)

namespace Playback

variable [Kinematics α] {script : Script α} {n : Nat} {p : Playback α}

/-- Once a playback is not playing, nothing happens any more. -/
theorem play_of_not_playing (h : p.status ≠ .playing) (moments : List (Moment α)) :
    p.play moments = moments.map fun m => ⟨p, m.body, .none⟩ := by
  induction moments with
  | nil => rfl
  | cons m rest ih =>
    unfold play
    rw [tick_value_of_not_playing h, List.map_cons, ← ih]

/-- The keyframes are told in the order of their numbers, round after round. -/
theorem play_started (h : p.Counts script n) (moments : List (Moment α)) :
    ∃ total, startedIn (p.play moments) = (List.range' n total).map (· % script.length) ∧
      (script.looping = false → n + total ≤ script.length) := by
  induction moments generalizing p n with
  | nil => exact ⟨0, rfl, h.le_length⟩
  | cons m rest ih =>
    obtain ⟨count, hcounts, hnames, -⟩ := tick_counts h m.dt m.body m.roster
    obtain ⟨total, hstarted, hlength⟩ := ih hcounts
    refine ⟨count + total, ?_, fun hlooping => ?_⟩
    · unfold play startedIn
      rw [List.flatMap_cons, hnames.started, ← List.range'_append_1, List.map_append, ← hstarted]
      rfl
    · have hle := hlength hlooping
      omega

/-- Each step tells of keyframes in the order of their numbers, and claims the rig as the last of
them does. -/
theorem play_names (h : p.Counts script n) {moments : List (Moment α)} {s : Progress α}
    (hs : s ∈ p.play moments) :
    ∃ m count, s.step.Names script m count ∧ (count ≠ 0 → 0 < script.length) := by
  induction moments generalizing p n with
  | nil => cases hs
  | cons m rest ih =>
    obtain ⟨count, hcounts, hnames, -⟩ := tick_counts h m.dt m.body m.roster
    rcases List.mem_cons.mp hs with rfl | hlater
    · exact ⟨n, count, hnames, fun hcount => hcounts.length_pos (by omega)⟩
    · exact ih hcounts hlater

/-- The step that reports the end comes once all keyframes were told of, and none after it does
anything. -/
theorem play_finish (h : p.Counts script n) {moments : List (Moment α)}
    {before after : List (Progress α)} {s : Progress α}
    (hsteps : p.play moments = before ++ s :: after) (hfinished : s.step.finished = true) :
    script.looping = false ∧
      startedIn (before ++ [s]) = (List.range' n (script.length - n)).map (· % script.length) ∧
      after = (moments.drop (before.length + 1)).map fun m => ⟨s.playback, m.body, .none⟩ := by
  induction before generalizing p n moments with
  | nil =>
    cases moments with
    | nil => cases hsteps
    | cons m rest =>
      obtain ⟨count, hcounts, hnames, hend⟩ := tick_counts h m.dt m.body m.roster
      obtain ⟨hs, hafter⟩ := List.cons.inj hsteps
      rw [hs] at hcounts hnames hend hafter
      have hstatus := hend hfinished
      obtain ⟨honce, hall⟩ := hcounts.of_finished hstatus
      have hcount : script.length - n = count := by omega
      refine ⟨honce, ?_, ?_⟩
      · rw [hcount, ← hnames.started]
        simp [startedIn]
      · rw [← hafter]
        exact play_of_not_playing (by simp [hstatus]) rest
  | cons first before ih =>
    cases moments with
    | nil => cases hsteps
    | cons m rest =>
      obtain ⟨count, hcounts, hnames, -⟩ := tick_counts h m.dt m.body m.roster
      obtain ⟨hs, hrest⟩ := List.cons.inj hsteps
      rw [hs] at hcounts hnames hrest
      obtain ⟨honce, hstarted, hafter⟩ := ih hcounts hrest
      refine ⟨honce, ?_, hafter⟩
      have hle := hcounts.le_length honce
      have hsum : script.length - n = count + (script.length - (n + count)) := by omega
      rw [hsum, ← List.range'_append_1, List.map_append, ← hstarted, ← hnames.started]
      rfl

end Playback

/-- The steps, one for each moment, tell of the keyframes of the script in order. -/
structure Script.ToldInOrder (script : Script α) (moments : List (Moment α))
    (steps : List (Progress α)) : Prop where
  /-- Taken together they tell of the keyframes 0, 1, 2 and so on, round after round. -/
  order : startedIn steps = (List.range (startedIn steps).length).map (· % script.length)
  /-- A script that does not start over has one round. -/
  once : script.looping = false → (startedIn steps).length ≤ script.length
  /-- The first step tells of the first keyframe, if there is one. -/
  begins : 0 < script.length → ∀ s ∈ steps.head?, s.step.started.head? = some 0
  /-- A step claims the rig for the last keyframe of which it tells. -/
  claim : ∀ s ∈ steps, ∀ i ∈ s.step.started.getLast?,
    ∃ k, script.keyframes[i]? = some k ∧ s.step.claimed = some k.claim
  /-- A step that tells of none does not claim it. -/
  noClaim : ∀ s ∈ steps, s.step.claimed = none ↔ s.step.started = []
  /-- A script that starts over has no end. -/
  endless : script.looping = true → ∀ s ∈ steps, s.step.finished = false
  /-- The end is reported once every keyframe was told of, and the later steps bring nothing about
  and leave the body as they find it. -/
  finish : ∀ before s after, steps = before ++ s :: after → s.step.finished = true →
    startedIn (before ++ [s]) = List.range script.length ∧
      after = (moments.drop (before.length + 1)).map fun m => ⟨s.playback, m.body, .none⟩

namespace Playback

variable [Kinematics α] {script : Script α} {p : Playback α}

/-- The first step after the start tells of the first keyframe. -/
theorem Counts.play_begins (h : p.Counts script 0) (hlength : 0 < script.length)
    (moments : List (Moment α)) :
    ∀ s ∈ (p.play moments).head?, s.step.started.head? = some 0 := by
  intro s hs
  cases moments with
  | nil => cases hs
  | cons m rest =>
    obtain rfl : (p.tick m.dt m.body m.roster).value = s := Option.some.inj hs
    rcases h with ⟨here, hactive⟩ | hreached
    · obtain ⟨count, htells, hcount⟩ :=
        tick_tells (Or.inl ⟨here, hactive⟩) here.isPlaying m.dt m.body m.roster
      obtain ⟨more, rfl⟩ := Nat.exists_eq_succ_of_ne_zero (hcount hactive)
      rw [htells.names.started]
      simp [List.range'_succ]
    · generalize hzero : 0 = n at hreached
      cases hreached with
      | idle _ isEmpty _ => omega
      | current m here _ => omega
      | finished => omega

/-- What was just started is told in order. -/
theorem Counts.toldInOrder (h : p.Counts script 0) (moments : List (Moment α)) :
    script.ToldInOrder moments (p.play moments) := by
  obtain ⟨total, hstarted, hlength⟩ := play_started h moments
  rw [Nat.zero_add] at hlength
  rw [← List.range_eq_range'] at hstarted
  have htotal : (startedIn (p.play moments)).length = total := by simp [hstarted]
  have hclaim : ∀ s ∈ p.play moments, ∀ i ∈ s.step.started.getLast?,
      ∃ k, script.keyframes[i]? = some k ∧ s.step.claimed = some k.claim := by
    intro s hs i hi
    obtain ⟨m, count, hnames, hlength⟩ := play_names h hs
    exact hnames.claimed_of_getLast? hlength hi
  have hnoClaim : ∀ s ∈ p.play moments, s.step.claimed = none ↔ s.step.started = [] := by
    intro s hs
    obtain ⟨m, count, hnames, hlength⟩ := play_names h hs
    exact hnames.claimed_eq_none_iff hlength
  refine
    { order := by rw [htotal]; exact hstarted
      once := by rw [htotal]; exact hlength
      begins := fun hpos => h.play_begins hpos moments
      claim := hclaim
      noClaim := hnoClaim
      endless := ?_
      finish := ?_ }
  · intro hlooping s hs
    obtain ⟨before, after, hsteps⟩ := List.append_of_mem hs
    cases hfinished : s.step.finished with
    | false => rfl
    | true =>
      have honce := (play_finish h hsteps hfinished).1
      rw [hlooping] at honce
      cases honce
  · intro before s after hsteps hfinished
    obtain ⟨-, hall, hafter⟩ := play_finish h hsteps hfinished
    refine ⟨?_, hafter⟩
    rw [hall, Nat.sub_zero, ← List.range_eq_range']
    refine (List.map_congr_left fun i hi => ?_).trans (List.map_id _)
    exact Nat.mod_eq_of_lt (List.mem_range.mp hi)

/-- From its start on, whatever goes by and whatever happens to the body and to the roster, a
playback tells of the keyframes of its script in order. -/
theorem play_toldInOrder (p : Playback α) (script : Script α) (moments : List (Moment α)) :
    script.ToldInOrder moments ((p.start script).play moments) ∧
      p.script.ToldInOrder moments (p.restart.play moments) :=
  ⟨(restart_counts { p with script }).toldInOrder moments, p.restart_counts.toldInOrder moments⟩

end Playback

end Skycam
