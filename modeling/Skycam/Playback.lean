import Skycam.Camera
import Skycam.Roster.Basic
import Skycam.Script.Basic

/-!
# Playback

A playback runs one script against the body of a rig, a step of time after another. When a keyframe
becomes current, the pose at that moment is kept and its goal is computed. A keyframe with a
duration then moves the body from that pose to the goal, unless it hands the body to a follow mode
and only keeps the time; one without a duration is applied at once, and the next keyframe takes its
turn in the same step of time. A chain of such keyframes may go round for ever, so a step of time
applies at most as many as the script has.
-/

namespace Skycam

variable {α : Type}

/-- Whether a playback is running. -/
inductive PlaybackStatus where
  /-- Nothing is played. -/
  | idle
  /-- A keyframe is current. -/
  | playing
  /-- The last keyframe is over. -/
  | finished
  deriving DecidableEq, Repr

/-- The name of a status. -/
def PlaybackStatus.label : PlaybackStatus → String
  | idle => "Idle"
  | playing => "Playing"
  | finished => "Finished"

/-- Who moves the rig while a keyframe is current. -/
inductive Claim where
  /-- The script. -/
  | cinematic
  /-- A follow mode. -/
  | follow (mode : FollowMode)
  deriving DecidableEq, Repr

/-- The claim in messages. -/
def Claim.label : Claim → String
  | cinematic => "Cinematic"
  | follow mode => s!"Follow({mode.label})"

/-- What one step of time brought about. -/
structure PlaybackStep where
  /-- The indices of the keyframes that became current, in order. -/
  started : List Nat
  /-- Who is to move the rig, according to the last keyframe that became current. -/
  claimed : Option Claim
  /-- Whether the current keyframe belongs to a follow mode. -/
  delegated : Bool
  /-- Whether the script came to its end. -/
  finished : Bool
  deriving DecidableEq, Repr

/-- The step that brought nothing about. -/
def PlaybackStep.none : PlaybackStep := ⟨[], Option.none, false, false⟩

/-- What a current keyframe looks at, found out when it became current. -/
inductive LookTarget (α : Type) where
  /-- Nothing. -/
  | none
  /-- A point. -/
  | point (target : Vec3 α)
  /-- An anchor that may move. -/
  | tracked (handle : Handle)
  deriving DecidableEq, Repr

/-- What was found out when a keyframe became current. -/
structure ActiveKeyframe (α : Type) where
  /-- The pose at that moment. -/
  start : Pose α
  /-- The pose to be reached. -/
  goal : Pose α
  /-- The fields of view between which the cameras go. -/
  fovTween : Option (α × α)
  /-- What is looked at. -/
  look : LookTarget α
  deriving DecidableEq, Repr

/-- A script and how far it has been played. -/
structure Playback (α : Type) where
  /-- The script. -/
  script : Script α
  /-- The index of the current keyframe. -/
  index : Nat
  /-- The time spent in the current keyframe. -/
  elapsed : α
  /-- Whether a keyframe is current. -/
  status : PlaybackStatus
  /-- What was found out about the current keyframe, once it has been set up. -/
  active : Option (ActiveKeyframe α)
  deriving DecidableEq, Repr

/-- The goal of a keyframe for a body at a pose. -/
def Keyframe.goal [Kinematics α] (k : Keyframe α) (start : Pose α) : Pose α where
  position :=
    match k.position, k.space with
    | .absolute v, _ => v
    | .relative v, .body => start.transformPoint v
    | .relative v, .world => start.position + v
  rotation :=
    match k.rotation with
    | .absolute v => Kinematics.eulerDegrees v
    | .relative v => start.rotation * Kinematics.eulerDegrees v

/-- Who moves the rig during a keyframe. -/
def Keyframe.claim (k : Keyframe α) : Claim :=
  match k.follow with
  | some mode => .follow mode
  | none => .cinematic

/-- Applies what a keyframe does to the projection when it becomes current. -/
def Keyframe.project (k : Keyframe α) (b : Body α) : Body α :=
  match k.projection with
  | some kind => b.setOrthographic (kind == .orthographic)
  | none => b

/-- Applies what a keyframe does to the field of view when it becomes current. A change that is to
take the duration of the keyframe is left for later. -/
def Keyframe.openFov [Scalar α] (k : Keyframe α) (b : Body α) : Body α × Option (α × α) :=
  match k.fov with
  | none => (b, none)
  | some change =>
    if !change.immediate && 0.0 < k.duration then (b, some (b.cameras.fov, change.value))
    else (b.setFov change.value, none)

/-- Finds out what a keyframe looks at. A player that cannot be looked at counts as the origin. -/
def Keyframe.lookTarget [Scalar α] (k : Keyframe α) (roster : Roster α) : Logged (LookTarget α) :=
  match k.lookAt with
  | .none => return .none
  | .point target _ => return .point target
  | .player name _ => do
    match ← roster.lookHandle? name with
    | some handle => return .tracked handle
    | none => return .point Vec3.zero

/-- The rotation of a body that looks at its target: at once, or the part `t` of the way. It stays
when the target has no pose or is too close. -/
def ActiveKeyframe.lookRotation [Kinematics α] (a : ActiveKeyframe α) (k : Keyframe α) (t : α)
    (roster : Roster α) (pose : Pose α) : Quat α :=
  let point : Option (Vec3 α) :=
    match a.look with
    | .none => none
    | .point target => some target
    | .tracked handle => (roster.pose? handle).map (·.position)
  match point.bind fun p => Kinematics.facing pose.position p with
  | some look => if k.lookAt.isSmooth then Kinematics.slerp a.start.rotation look t else look
  | none => pose.rotation

/-- The body when the part `t` of a keyframe is over and `dt` has gone by. A keyframe that moves
along the axes of the camera while it looks at something has a constant speed in that space. -/
def ActiveKeyframe.moveBody [Kinematics α] (a : ActiveKeyframe α) (k : Keyframe α) (t dt : α)
    (roster : Roster α) (b : Body α) : Body α :=
  let position :=
    if k.space = .body && k.lookAt.isActive then
      let velocity := (b.pose.rotation.rotate k.position.value).divide k.duration
      b.pose.position + velocity.scale dt
    else a.start.position.lerp a.goal.position t
  let rotation :=
    if k.lookAt.isActive then a.lookRotation k t roster ⟨position, b.pose.rotation⟩
    else Kinematics.slerp a.start.rotation a.goal.rotation t
  let moved : Body α := b.setPose ⟨position, rotation⟩
  match a.fovTween with
  | some (first, last) => moved.setFov (first + (last - first) * t)
  | none => moved

/-- A playback in the course of a step of time, with the body that it moves and what has happened
in the step so far. -/
structure Progress (α : Type) where
  /-- The playback. -/
  playback : Playback α
  /-- The body. -/
  body : Body α
  /-- What has happened. -/
  step : PlaybackStep
  deriving DecidableEq, Repr

namespace Playback

/-- The playback without a script. -/
def new [Scalar α] : Playback α := ⟨Script.empty, 0, 0.0, .idle, none⟩

/-- Goes back to the first keyframe, if there is one. It is set up by the next step of time. -/
def restart [Scalar α] (p : Playback α) : Playback α :=
  { p with
    index := 0
    elapsed := 0.0
    active := none
    status := if p.script.isEmpty then .idle else .playing }

/-- Takes another script and starts it. -/
def start [Scalar α] (p : Playback α) (script : Script α) : Playback α :=
  { p with script }.restart

/-- Stops. The body stays where it is. -/
def stop [Scalar α] (p : Playback α) : Playback α :=
  { p with status := .idle, active := none, elapsed := 0.0 }

/-- Whether a keyframe is current. -/
def isPlaying (p : Playback α) : Bool := p.status == .playing

/-- The current keyframe. -/
def current? (p : Playback α) : Option (Keyframe α) :=
  if p.isPlaying then p.script.keyframes[p.index]? else none

end Playback

namespace Progress

/-- The note of a keyframe that becomes current. -/
def startNote [Scalar α] (s : Progress α) (k : Keyframe α) : String :=
  let seconds := Scalar.spell k.duration
  s!"playback: keyframe {s.playback.index} current ({k.claim.label}, {seconds}s)"

/-- The note of a step of time that leaves keyframes without a duration for the next one. -/
def deferNote (s : Progress α) : String :=
  let count := s.playback.script.length
  s!"playback: {count} zero-duration keyframes in one tick, deferring the rest"

/-- Makes the keyframe `k` at the present index current: keeps the pose, computes the goal and
applies what takes effect at once. -/
def setUp [Kinematics α] (s : Progress α) (k : Keyframe α) (roster : Roster α) :
    Logged (Progress α) := do
  let start := s.body.pose
  let (body, fovTween) := k.openFov (k.project s.body)
  let look ← k.lookTarget roster
  Logged.note .debug (s.startNote k)
  return {
    playback :=
      { s.playback with active := some { start, goal := k.goal start, fovTween, look } }
    body
    step :=
      { s.step with started := s.step.started ++ [s.playback.index], claimed := some k.claim } }

/-- Goes on to the keyframe at `index`, which becomes current. -/
def goTo [Kinematics α] (s : Progress α) (index : Nat) (roster : Roster α) :
    Logged (Progress α) :=
  let playback := { s.playback with index, elapsed := 0.0, active := none }
  match s.playback.script.keyframes[index]? with
  | some k => setUp { s with playback } k roster
  | none => return { s with playback }

/-- Ends the current keyframe. The next one becomes current; after the last one the script starts
over or the playback is finished. -/
def advance [Kinematics α] (s : Progress α) (roster : Roster α) : Logged (Progress α) :=
  let next := s.playback.index + 1
  if next < s.playback.script.length then s.goTo next roster
  else if s.playback.script.looping then s.goTo 0 roster
  else
    return {
      playback :=
        { s.playback with
          index := s.playback.script.length
          elapsed := 0.0
          active := none
          status := .finished }
      body := s.body
      step := { s.step with finished := true } }

/-- Applies a keyframe that takes no time. -/
def applyInstant [Kinematics α] (s : Progress α) (k : Keyframe α) : Progress α :=
  { s with body := s.body.setPose (k.goal s.body.pose) }

/-- Lets time go by in a keyframe that takes some, and ends it when it is over. -/
def runTimed [Kinematics α] (s : Progress α) (k : Keyframe α) (dt : α) (roster : Roster α) :
    Logged (Progress α) :=
  let elapsed := s.playback.elapsed + dt
  let timed : Progress α := { s with playback := { s.playback with elapsed } }
  if k.isCinematic then
    let t := Scalar.clampUnit (elapsed / k.duration)
    let moved : Progress α :=
      match s.playback.active with
      | some a => { timed with body := a.moveBody k t dt roster s.body }
      | none => timed
    if 1.0 ≤ t then moved.advance roster else return moved
  else
    let delegated : Progress α := { timed with step := { s.step with delegated := true } }
    if k.duration ≤ elapsed then delegated.advance roster else return delegated

/-- Runs the current keyframe, and those after it as long as they take no time, `budget` of them
at most. -/
def run [Kinematics α] (dt : α) (roster : Roster α) : Nat → Progress α → Logged (Progress α)
  | budget, s =>
    match s.playback.current? with
    | none => return s
    | some k =>
      if k.duration ≤ 0.0 then
        match budget with
        | 0 => do
          Logged.note .warn s.deferNote
          return s
        | budget + 1 => do
          let next ← (s.applyInstant k).advance roster
          run dt roster budget next
      else s.runTimed k dt roster

/-- Sets up the current keyframe if that has not been done. -/
def prepare [Kinematics α] (s : Progress α) (roster : Roster α) : Logged (Progress α) :=
  match s.playback.active, s.playback.current? with
  | none, some k => s.setUp k roster
  | _, _ => return s

end Progress

namespace Playback

/-- Lets a step of time go by. One that is negative, infinite or no number counts as none. -/
def tick [Kinematics α] (p : Playback α) (dt : α) (body : Body α) (roster : Roster α) :
    Logged (Progress α) := do
  let ready ← Progress.prepare ⟨p, body, .none⟩ roster
  ready.run (Scalar.timeStep dt) roster p.script.length

end Playback

end Skycam
