import Skycam.Rig.Basic

/-!
# A step of time in the life of a rig

First a rig that waits for its target looks at the roster, if that is due; the last look in vain
ends it. Then its script runs. Then, if a follow mode moves it, it takes the first target there is,
unless it has one, and follows it; what keeps it from following makes it wait.
-/

namespace Skycam.Rig

/-- Starts to wait for the target, with the cameras off. -/
def beginRecovery (config : Config) (r : Rig) (fault : FollowFault) : Logged Rig :=
  match r.targetName? with
  | none => return r
  | some username => do
    Logged.note .warn s!"rig '{r.id.text}': lost '{username}': {fault.message}"
    let window := config.recovery
    return { r with
      body := r.body.setEnabled false
      target := .recovering username (RecoveryTimer.new window.pollInterval window.timeout) }.emit
        (.targetLost username fault.message)

/-- The note of a target that came back. -/
def recoveredNote (r : Rig) (username : String) (after : Float32) : Note :=
  let seconds := Single.fixed 2 after
  ⟨.info, s!"rig '{r.id.text}': recovered '{username}' after {seconds}s"⟩

/-- The note of a target that did not come back. -/
def timeoutNote (config : Config) (r : Rig) (username : String) : Note :=
  let seconds := Single.fixed 2 config.recovery.timeout
  ⟨.warn, s!"rig '{r.id.text}': '{username}' did not come back within {seconds}s"⟩

/-- Looks for a lost target in the roster and binds to it. -/
def lookForTarget (config : Config) (r : Rig) (username : String) (after : Float32)
    (roster : Roster Float32) : Logged (Option Rig) :=
  match roster.find? username with
  | none => return none
  | some e => do
    match ← r.bind? config e roster with
    | none => return none
    | some bound =>
      Logged.report [r.recoveredNote username after]
      return some (bound.emit (.recovered username after))

/-- Waits for a lost target for a step of time. A reason is given when the wait is over in vain. -/
def pollRecovery (config : Config) (r : Rig) (dt : Float32) (roster : Roster Float32) :
    Logged (Rig × Option DestroyReason) :=
  match r.target with
  | .recovering username timer =>
    let (due, timer) := timer.advance dt
    let waiting := { r with target := .recovering username timer }
    match due with
    | .wait => return (waiting, none)
    | _ => do
      match ← waiting.lookForTarget config username timer.clock roster with
      | some bound => return (bound, none)
      | none =>
        if due = .final then
          Logged.report [waiting.timeoutNote config username]
          return (waiting, some .recoveryTimeout)
        else return (waiting, none)
  | _ => return (r, none)

/-- Gives the rig to the one whom the script has called upon. -/
def obey (config : Config) (r : Rig) : Claim → Rig
  | .cinematic => { r with control := .cinematic }.hideFollow
  | .follow mode => ({ r with control := .follow }.setFollowMode config mode).showFollow

/-- Takes over what a step of playback brought about. -/
def afterPlayback (config : Config) (r : Rig) (p : Progress Float32) : Rig :=
  let moved := { r with
    playback := p.playback
    body := p.body
    events := r.events ++ p.step.started.map .keyframeStarted }
  let claimed :=
    match p.step.claimed with
    | some claim => moved.obey config claim
    | none => moved
  if p.step.finished then claimed.emit .playbackFinished else claimed

/-- Runs the script for a step of time. -/
def runPlayback (config : Config) (r : Rig) (dt : Float32) (roster : Roster Float32) :
    Logged Rig := do
  let progress ← r.playback.tick dt r.body roster
  return r.afterPlayback config progress

/-- Takes the first target there is when there is none. -/
def seekTarget (config : Config) (r : Rig) (roster : Roster Float32) : Logged Rig :=
  match r.target with
  | .unbound => do
    match ← r.bindFirst? config roster with
    | some bound => return bound
    | none => return r
  | _ => return r

/-- Follows the target for a step of time. -/
def followTarget (config : Config) (r : Rig) (dt : Float32) (roster : Roster Float32) :
    Logged Rig :=
  match r.target with
  | .bound username handle _ =>
    match config.tuning.follow r.mode username (roster.pose? handle) r.body.pose dt with
    | .ok pose => return { r with body := r.body.setPose pose }
    | .error fault => r.beginRecovery config fault
  | _ => return r

/-- Follows a target, if a follow mode moves the rig. -/
def runFollow (config : Config) (r : Rig) (dt : Float32) (roster : Roster Float32) :
    Logged Rig :=
  if r.control = .follow then do
    let sought ← r.seekTarget config roster
    sought.followTarget config dt roster
  else return r

/-- Lets a step of time go by. A reason is given when the rig has to go. -/
def tick (config : Config) (r : Rig) (dt : Float32) (roster : Roster Float32) :
    Logged (Rig × Option DestroyReason) := do
  match ← r.pollRecovery config dt roster with
  | (waiting, some reason) => return (waiting, some reason)
  | (ready, none) =>
    let played ← ready.runPlayback config dt roster
    let followed ← played.runFollow config dt roster
    return (followed, none)

end Skycam.Rig
