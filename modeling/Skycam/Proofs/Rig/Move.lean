import Mathlib.Logic.Relation
import Skycam.Proofs.Rig.Target

/-!
# What can befall an open rig

`Rig.Move` lists the changes that an open rig can undergo, whoever asks for them. A step of time is
a sequence of moves (`Rig.tick_moves`), and so is every request, which makes `Rig.Move` the one
place where the life of a rig has to be taken apart: what each move keeps is kept for as long as the
rig is open.
-/

namespace Skycam.Rig

/-- One change of an open rig. -/
inductive Move (config : Config) : Rig → Rig → Prop where
  /-- It is bound to a player by the handle that suits that player. -/
  | attach (r : Rig) (username : String) (handle : Handle) (isLocal : Bool) (pose : Pose Float32)
      (suits : handle.Suits isLocal) :
      Move config r (r.attached config username handle isLocal pose)
  /-- It has waited for its target for some time. -/
  | wait (r : Rig) (username : String) (before after : RecoveryTimer Float32)
      (waits : r.target = .recovering username before) :
      Move config r { r with target := .recovering username after }
  /-- It tells that its target came back. -/
  | recover (r : Rig) (username : String) (after : Float32) :
      Move config r (r.emit (.recovered username after))
  /-- It loses its target. -/
  | lose (r : Rig) (fault : FollowFault) : Move config r (r.beginRecovery config fault).value
  /-- It follows its target. -/
  | follow (r : Rig) (pose : Pose Float32) : Move config r { r with body := r.body.setPose pose }
  /-- Its script runs for a step of time. -/
  | play (r : Rig) (dt : Float32) (roster : Roster Float32) :
      Move config r (r.runPlayback config dt roster).value
  /-- It takes a follow mode. -/
  | mode (r : Rig) (mode : FollowMode) : Move config r (r.setFollowMode config mode)
  /-- It takes a field of view. -/
  | fov (r : Rig) (fov : Float32) : Move config r { r with body := r.body.setFov fov }
  /-- It is given to its script. -/
  | enterCinematic (r : Rig) (uiVisible : Bool) (script : Option (Script Float32)) :
      Move config r (r.enterCinematic uiVisible script)
  /-- It is given to its follow mode. -/
  | leaveCinematic (r : Rig) (uiVisible : Bool) : Move config r (r.leaveCinematic uiVisible)
  /-- It starts a script. -/
  | runScript (r : Rig) (script : Script Float32) : Move config r (r.runScript script)
  /-- It stops its script. -/
  | stopScript (r : Rig) : Move config r r.stopScript
  /-- Its window is shown or hidden. -/
  | showWindow (r : Rig) (visible : Bool) : Move config r (r.setUiVisible visible).1
  /-- Its window is locked or unlocked. -/
  | lock (r : Rig) (locked : Bool) : Move config r (r.setLocked locked)
  /-- Its window is moved. -/
  | place (r : Rig) (rect : PixelRect) : Move config r { r with placement := rect }
  /-- Its render surface gets a size. -/
  | resize (r : Rig) (width height : UInt32) : Move config r (r.resizeSurface width height).1

/-- Any number of changes of an open rig. -/
abbrev Moves (config : Config) : Rig → Rig → Prop := Relation.ReflTransGen (Move config)

variable {config : Config} {r : Rig} {dt : Float32} {roster : Roster Float32}

/-! ## Searches for a target -/

theorem bind?_moves {e : Entry} {bound : Rig}
    (h : (r.bind? config e roster).value = some bound) : Moves config r bound := by
  rw [bind?_value] at h
  obtain ⟨⟨handle, pose⟩, hbind, rfl⟩ := Option.map_eq_some_iff.mp h
  have hhandle := (Roster.bindable?_eq_some_iff.mp hbind).1
  exact .single (.attach r _ _ _ _ (Entry.followHandle?_suits hhandle))

theorem bindFirst?_moves {bound : Rig}
    (h : (r.bindFirst? config roster).value = some bound) : Moves config r bound := by
  obtain ⟨e, handle, pose, hfirst, -, rfl⟩ := bindFirst?_eq_some_iff.mp h
  have hhandle := (Roster.posed?_eq_some_iff.mp (Roster.firstPosed?_mem hfirst).2).1
  exact .single (.attach r _ _ _ _ (Entry.followHandle?_suits hhandle))

theorem waited_move {name : String} {timer : RecoveryTimer Float32}
    (h : r.target = .recovering name timer) : Move config r (r.waited name timer dt) :=
  .wait r name timer _ h

/-- A rig that finds its target again has waited, is bound and tells of it. -/
theorem rebound_moves {name : String} {timer : RecoveryTimer Float32} {e : Entry} {h : Handle}
    {pose : Pose Float32} (ht : r.target = .recovering name timer)
    (hs : roster.sighted? name = some (e, h, pose)) :
    Moves config r (r.rebound config name timer dt e h pose) := by
  have hbind := (Roster.sighted?_eq_some_iff.mp hs).2
  have hhandle := (Roster.bindable?_eq_some_iff.mp hbind).1
  have hwait : Moves config r (r.waited name timer dt) := .single (waited_move ht)
  exact (hwait.tail (.attach _ _ _ _ pose (Entry.followHandle?_suits hhandle))).tail
    (.recover _ _ _)

/-- The look for a lost target is a sequence of moves. -/
theorem pollRecovery_moves : Moves config r (r.pollRecovery config dt roster).value.1 := by
  cases ht : r.target with
  | recovering name timer =>
    rw [pollRecovery_value_of_recovering ht]
    cases (timer.advance dt).1 <;> cases hs : roster.sighted? name
    case poll.some | final.some => exact rebound_moves ht hs
    all_goals exact .single (waited_move ht)
  | unbound | bound => rw [pollRecovery_value_of_not_recovering (by simp [ht, Target.isRecovering])]

/-! ## A step of time -/

/-- The search for a first target is a move or none. -/
theorem seekTarget_moves : Moves config r (r.seekTarget config roster).value := by
  unfold seekTarget
  split
  · cases hb : (r.bindFirst? config roster).value with
    | none => simpa [hb] using Relation.ReflTransGen.refl
    | some bound => simpa [hb] using bindFirst?_moves hb
  · exact .refl

/-- To follow a target is a move, and to lose it is another. -/
theorem followTarget_moves : Moves config r (r.followTarget config dt roster).value := by
  unfold followTarget
  split
  · split
    · exact .single (.follow r _)
    · exact .single (.lose r _)
  · exact .refl

theorem runFollow_moves : Moves config r (r.runFollow config dt roster).value := by
  unfold runFollow
  split
  · exact seekTarget_moves.trans followTarget_moves
  · exact .refl

theorem afterPoll_moves (config : Config) (dt : Float32) (roster : Roster Float32) (ready : Rig) :
    Moves config ready
      ((ready.runPlayback config dt roster).value.runFollow config dt roster).value :=
  Relation.ReflTransGen.trans (.single (.play ready dt roster)) runFollow_moves

/-- A step of time is a sequence of moves. -/
theorem tick_moves : Moves config r (r.tick config dt roster).value.1 := by
  have hpoll : Moves config r (r.pollRecovery config dt roster).value.1 := pollRecovery_moves
  cases hp : (r.pollRecovery config dt roster).value with
  | mk ready reason =>
    rw [hp] at hpoll
    cases reason with
    | some reason =>
      rw [tick_value_of_poll_some hp]
      exact hpoll
    | none =>
      rw [tick_value_of_poll_none hp]
      exact hpoll.trans (afterPoll_moves config dt roster ready)

/-! ## Requests -/

theorem setPlacement_moves (rect : PixelRect) : Moves config r (r.setPlacement rect) :=
  Relation.ReflTransGen.trans (.single (.place r rect)) (.single (.resize _ _ _))

end Skycam.Rig
