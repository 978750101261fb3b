import Skycam.Rig.Tick

/-!
# How a rig comes by its target

The searches for a target, as equations: what a rig that is to be bound to a player turns into, what
a look at the roster does to a rig that waits, and how a step of time goes on from there. After
these, no proof has to look into the searches themselves.
-/

namespace Skycam

/-- The handle is the one by which a player is followed: the place to start of the local viewer, the
body of anyone else. -/
def Handle.Suits (h : Handle) (isLocal : Bool) : Prop :=
  h.anchor = if isLocal then .reset else .body

/-- The anchor of the handle tells whether the player is the local viewer. -/
theorem Handle.Suits.isLocal_eq {h : Handle} {isLocal : Bool} (hs : h.Suits isLocal) :
    (h.anchor == .reset) = isLocal := by
  rw [hs]
  cases isLocal with
  | false => rfl
  | true => rfl

theorem Entry.followHandle?_suits {e : Entry} {h : Handle} (he : e.followHandle? = some h) :
    h.Suits e.isLocal := by
  obtain ⟨live, -, rfl⟩ := Option.map_eq_some_iff.mp he
  rfl

namespace Roster

/-- The handle by which a player can be followed at present, with its pose, which is finite. -/
def bindable? (roster : Roster Float32) (e : Entry) : Option (Handle × Pose Float32) := do
  let h ← e.followHandle?
  let pose ← Rig.usablePose? roster h
  return (h, pose)

/-- The handle by which a player is followed, with its pose, whether that is finite or not. -/
def posed? (roster : Roster Float32) (e : Entry) : Option (Handle × Pose Float32) := do
  let h ← e.followHandle?
  let pose ← roster.pose? h
  return (h, pose)

/-- The first player whose handle has a pose, with both. -/
def firstPosed? (roster : Roster Float32) : Option (Entry × Handle × Pose Float32) :=
  roster.entries.findSome? fun e => (roster.posed? e).map fun found => (e, found)

/-- The first player of a name, if it can be followed at present. -/
def sighted? (roster : Roster Float32) (name : String) :
    Option (Entry × Handle × Pose Float32) := do
  let e ← roster.find? name
  let (h, pose) ← roster.bindable? e
  return (e, h, pose)

variable {roster : Roster Float32} {e : Entry} {h : Handle} {pose : Pose Float32}

theorem usablePose?_eq_some_iff :
    Rig.usablePose? roster h = some pose ↔ roster.pose? h = some pose ∧ pose.isFinite = true := by
  simp [Rig.usablePose?, Option.filter_eq_some_iff]

theorem bindable?_eq_some_iff :
    roster.bindable? e = some (h, pose) ↔
      e.followHandle? = some h ∧ roster.pose? h = some pose ∧ pose.isFinite = true := by
  simp [bindable?, Option.bind_eq_some_iff, usablePose?_eq_some_iff]

/-- The first player of a name is the one who is looked at. -/
theorem sighted?_eq_some_iff {name : String} :
    roster.sighted? name = some (e, h, pose) ↔
      roster.find? name = some e ∧ roster.bindable? e = some (h, pose) := by
  constructor
  · intro hs
    obtain ⟨found, hfound, hs⟩ := Option.bind_eq_some_iff.mp hs
    obtain ⟨⟨h', pose'⟩, hbind, hs⟩ := Option.bind_eq_some_iff.mp hs
    cases hs
    exact ⟨hfound, hbind⟩
  · rintro ⟨hfind, hbind⟩
    simp [sighted?, hfind, hbind]

theorem usablePose?_eq_none_iff :
    Rig.usablePose? roster h = none ↔
      ∀ pose, roster.pose? h = some pose → pose.isFinite = false := by
  simp [Rig.usablePose?, Option.filter_eq_none_iff]

/-- A player cannot be followed without a live entity, nor without a finite pose. -/
theorem bindable?_eq_none_iff :
    roster.bindable? e = none ↔ e.live = none ∨ ∃ h, e.followHandle? = some h ∧
      ∀ pose, roster.pose? h = some pose → pose.isFinite = false := by
  cases hhandle : e.followHandle? with
  | none =>
    have hlive : e.live = none := Option.map_eq_none_iff.mp hhandle
    simp [bindable?, hhandle, hlive]
  | some h =>
    have hlive : e.live ≠ none := by
      intro hnone
      simp [Entry.followHandle?, hnone] at hhandle
    simp only [hlive, false_or, Option.some.injEq, exists_eq_left']
    rw [← usablePose?_eq_none_iff]
    cases hpose : Rig.usablePose? roster h <;> simp [bindable?, hhandle, hpose]

/-- No player of a name can be followed if there is none, or the first one cannot be. -/
theorem sighted?_eq_none_iff {name : String} :
    roster.sighted? name = none ↔
      roster.find? name = none ∨ ∃ e, roster.find? name = some e ∧ roster.bindable? e = none := by
  cases hfind : roster.find? name with
  | none => simp [sighted?, hfind]
  | some e => cases hbind : roster.bindable? e <;> simp [sighted?, hfind, hbind]

theorem posed?_eq_some_iff :
    roster.posed? e = some (h, pose) ↔ e.followHandle? = some h ∧ roster.pose? h = some pose := by
  simp [posed?, Option.bind_eq_some_iff]

/-- Those who can be followed are those whose pose is finite. -/
theorem bindable?_eq_filter :
    roster.bindable? e = (roster.posed? e).filter fun found => found.2.isFinite := by
  unfold bindable? posed? Rig.usablePose?
  cases e.followHandle? with
  | none => rfl
  | some h =>
    cases hpose : roster.pose? h with
    | none => simp [hpose]
    | some pose => cases hfinite : pose.isFinite <;> simp [hpose, hfinite, Option.filter_some]

/-- The search for a valid target looks for a pose and passes on the handle alone. -/
theorem firstValid?_eq :
    roster.firstValid? = roster.firstPosed?.map fun found => (found.1.username, found.2.1) := by
  unfold firstValid? firstPosed? posed?
  rw [List.map_findSome?]
  congr 1
  funext e
  rw [Function.comp_apply]
  cases e.followHandle? with
  | none => rfl
  | some h => cases hpose : roster.pose? h <;> simp [hpose]

/-- The first player with a pose is one of the roster. -/
theorem firstPosed?_mem {found : Handle × Pose Float32}
    (hfirst : roster.firstPosed? = some (e, found)) :
    e ∈ roster.entries ∧ roster.posed? e = some found := by
  obtain ⟨x, hx, hposed⟩ := List.exists_of_findSome?_eq_some hfirst
  obtain ⟨found', hfound, hpair⟩ := Option.map_eq_some_iff.mp hposed
  obtain ⟨rfl, rfl⟩ := Prod.mk.inj hpair
  exact ⟨hx, hfound⟩

end Roster

namespace Rig

variable {config : Config} {r : Rig} {dt : Float32} {roster : Roster Float32}

/-- A rig is bound to a player who can be followed. -/
theorem bind?_value (e : Entry) :
    (r.bind? config e roster).value =
      (roster.bindable? e).map fun (h, pose) => r.attached config e.username h e.isLocal pose := by
  unfold bind? Roster.bindable?
  cases e.followHandle? with
  | none => rfl
  | some h =>
    cases hp : usablePose? roster h with
    | none => simp [hp]
    | some pose => simp [hp, attach]

/-- A rig is bound to the first player with a pose, if that pose is finite. -/
theorem bindFirst?_value :
    (r.bindFirst? config roster).value =
      (roster.firstPosed?.filter fun found => found.2.2.isFinite).map fun (e, h, pose) =>
        r.attached config e.username h e.isLocal pose := by
  unfold bindFirst?
  rw [Roster.firstValid?_eq]
  cases hfirst : roster.firstPosed? with
  | none => rfl
  | some found =>
    obtain ⟨e, h, pose⟩ := found
    obtain ⟨-, hposed⟩ := Roster.firstPosed?_mem hfirst
    obtain ⟨hhandle, hpose⟩ := Roster.posed?_eq_some_iff.mp hposed
    have hlocal := (Entry.followHandle?_suits hhandle).isLocal_eq
    cases hfinite : pose.isFinite with
    | false => simp [usablePose?, hpose, hfinite, Option.filter_some]
    | true => simp [usablePose?, hpose, hfinite, Option.filter_some, attach, hlocal]

/-- Whoever is found first can be followed. -/
theorem bindFirst?_eq_some_iff {bound : Rig} :
    (r.bindFirst? config roster).value = some bound ↔
      ∃ e h pose, roster.firstPosed? = some (e, h, pose) ∧ pose.isFinite = true ∧
        bound = r.attached config e.username h e.isLocal pose := by
  rw [bindFirst?_value]
  constructor
  · intro hbound
    obtain ⟨⟨e, h, pose⟩, hfound, rfl⟩ := Option.map_eq_some_iff.mp hbound
    obtain ⟨hfirst, hfinite⟩ := Option.filter_eq_some_iff.mp hfound
    exact ⟨e, h, pose, hfirst, hfinite, rfl⟩
  · rintro ⟨e, h, pose, hfirst, hfinite, rfl⟩
    rw [hfirst, Option.filter_some, if_pos hfinite]
    rfl

/-- A look at the roster binds the rig to the first player of the name, if that one can be
followed. -/
theorem lookForTarget_value (name : String) (after : Float32) :
    (r.lookForTarget config name after roster).value =
      (roster.sighted? name).map fun (e, h, pose) =>
        (r.attached config e.username h e.isLocal pose).emit (.recovered name after) := by
  unfold lookForTarget Roster.sighted?
  cases roster.find? name with
  | none => rfl
  | some e =>
    cases hb : roster.bindable? e with
    | none => simp [bind?_value, hb]
    | some found => simp [bind?_value, hb]

/-- The rig that goes on waiting for its target after a step of time. -/
def waited (r : Rig) (name : String) (timer : RecoveryTimer Float32) (dt : Float32) : Rig :=
  { r with target := .recovering name (timer.advance dt).2 }

/-- The rig that has found its target again after a step of time. -/
def rebound (config : Config) (r : Rig) (name : String) (timer : RecoveryTimer Float32)
    (dt : Float32) (e : Entry) (h : Handle) (pose : Pose Float32) : Rig :=
  ((r.waited name timer dt).attached config e.username h e.isLocal pose).emit
    (.recovered name (timer.advance dt).2.clock)

theorem pollRecovery_value_of_not_recovering (h : r.target.isRecovering = false) :
    (r.pollRecovery config dt roster).value = (r, none) := by
  unfold pollRecovery
  split
  · next htarget => simp [htarget, Target.isRecovering] at h
  · rfl

/-- A rig that waits for its target binds to it when a look at the roster is due and finds it, and
gives up when the last look does not. -/
theorem pollRecovery_value_of_recovering {name : String} {timer : RecoveryTimer Float32}
    (h : r.target = .recovering name timer) :
    (r.pollRecovery config dt roster).value =
      match (timer.advance dt).1, roster.sighted? name with
      | .wait, _ => (r.waited name timer dt, none)
      | _, some (e, h, pose) => (r.rebound config name timer dt e h pose, none)
      | .poll, none => (r.waited name timer dt, none)
      | .final, none => (r.waited name timer dt, some .recoveryTimeout) := by
  simp only [pollRecovery, h]
  cases hdue : (timer.advance dt).1 with
  | wait => rfl
  | poll => cases hs : roster.sighted? name <;>
      simp [lookForTarget_value, hs, waited, rebound]
  | final => cases hs : roster.sighted? name <;>
      simp [lookForTarget_value, hs, waited, rebound]

theorem tick_value_of_poll_some {waiting : Rig} {reason : DestroyReason}
    (h : (r.pollRecovery config dt roster).value = (waiting, some reason)) :
    (r.tick config dt roster).value = (waiting, some reason) := by
  simp [tick, h]

theorem tick_value_of_poll_none {ready : Rig}
    (h : (r.pollRecovery config dt roster).value = (ready, none)) :
    (r.tick config dt roster).value =
      (((ready.runPlayback config dt roster).value.runFollow config dt roster).value, none) := by
  simp [tick, h]

end Rig

end Skycam
