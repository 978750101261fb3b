import Skycam.Rig.Tick
import Skycam.Script.Reader

/-!
# Fleets

A fleet holds the open rigs in the order of their creation. Rigs are created, changed and closed by
name, and an update lets a step of time go by for all of them. The events of a rig stay with it
until an update delivers them; those of a rig that is closed between two updates wait in the fleet.
A request that is refused leaves the fleet as it was.
-/

namespace Skycam

/-- Why a request is refused. -/
inductive FleetError where
  /-- The name of a new rig is blank. -/
  | emptyRigId
  /-- There is a rig of that name. -/
  | duplicateRig (id : RigId)
  /-- There is no rig of that name. -/
  | rigNotFound (id : RigId)
  /-- The roster has no players. -/
  | emptyRoster
  /-- No target could be bound. -/
  | noValidTarget (id : RigId)
  /-- There is no player of that name. -/
  | unknownPlayer (name : String)
  /-- The text of a preset cannot be read. -/
  | preset (e : PresetError)
  /-- The ends of the range of fields of view are not in order, so nothing can be cut to it. -/
  | fovRange
  deriving DecidableEq, Repr

/-- The message of an error. -/
def FleetError.message : FleetError → String
  | emptyRigId => "rig id must not be empty"
  | duplicateRig id => s!"rig '{id.text}' already exists"
  | rigNotFound id => s!"rig '{id.text}' not found"
  | emptyRoster => "no valid player targets in the roster"
  | noValidTarget id => s!"no target could be bound for rig '{id.text}'"
  | unknownPlayer name => s!"player '{name}' is not in the roster"
  | preset e => e.message
  | fovRange => "the range of fields of view is empty"

/-- How a new rig starts out. -/
inductive Spawn where
  /-- It follows the first target there is. -/
  | follow
  /-- It waits for a script. -/
  | cinematic
  /-- It has the mode, the preferred target and the placement of a preset. -/
  | preset (p : Preset)
  deriving DecidableEq, Repr

/-- The open rigs and what belongs to all of them. -/
structure Fleet where
  /-- The configuration. -/
  config : Config
  /-- The rigs in the order of their creation. -/
  rigs : List Rig
  /-- The size of the display. -/
  display : DisplaySize
  /-- Events of rigs that were closed since the last update. -/
  pending : List Event
  /-- The frames of the last update. -/
  frames : List Frame
  /-- The events of the last update. -/
  events : List Event
  deriving DecidableEq, Repr

namespace Fleet

/-- The fleet without rigs. -/
def new (config : Config) : Fleet := ⟨config, [], DisplaySize.standard, [], [], []⟩

/-- The names of the rigs. -/
def ids (f : Fleet) : List RigId := f.rigs.map (·.id)

/-- The rig of a name. -/
def rig? (f : Fleet) (id : RigId) : Option Rig := f.rigs.find? (·.id == id)

/-- Whether there is a rig of that name. -/
def contains (f : Fleet) (id : RigId) : Bool := (f.rig? id).isSome

/-- Puts a rig in the place of the one of its name. -/
def replace (f : Fleet) (rig : Rig) : Fleet :=
  { f with rigs := f.rigs.map fun r => if r.id = rig.id then rig else r }

/-- Takes the rig of a name away. -/
def without (f : Fleet) (id : RigId) : Fleet := { f with rigs := f.rigs.filter (·.id ≠ id) }

/-- Changes the rig of a name. -/
def edit (f : Fleet) (id : RigId) (change : Rig → Rig) : Except FleetError Fleet :=
  match f.rig? id with
  | some rig => .ok (f.replace (change rig))
  | none => .error (.rigNotFound id)

/-- A rig as it starts out, with a target unless it is cinematic. -/
def spawnRig? (f : Fleet) (id : RigId) (spawn : Spawn) (roster : Roster Float32) :
    Logged (Option Rig) :=
  match spawn with
  | .cinematic => return some (Rig.new f.config id true)
  | .follow => (Rig.new f.config id false).bindFirst? f.config roster
  | .preset p => do
    let rig := (Rig.new f.config id false).setFollowMode f.config p.mode
    let preferred ←
      match (if p.target = "" then none else roster.find? p.target) with
      | some e => rig.bind? f.config e roster
      | none => pure none
    let bound ←
      match preferred with
      | some bound => pure (some bound)
      | none => rig.bindFirst? f.config roster
    return bound.map fun r =>
      r.setPlacement (p.toPixels f.display f.config.surface.minPresetSize)

/-- Creates a rig. Its name must be new and not blank, the roster must not be empty, and a rig that
is to follow must find a target. -/
def create (f : Fleet) (id : RigId) (spawn : Spawn) (roster : Roster Float32) :
    Logged (Except FleetError Fleet) :=
  if id.isBlank then return .error .emptyRigId
  else if f.contains id then return .error (.duplicateRig id)
  else if roster.isEmpty then do
    Logged.note .warn s!"cannot create rig '{id.text}': no valid player targets"
    return .error .emptyRoster
  else do
    match ← f.spawnRig? id spawn roster with
    | none =>
      Logged.note .warn s!"cannot create rig '{id.text}': no target could be bound"
      return .error (.noValidTarget id)
    | some rig =>
      Logged.note .info s!"rig '{id.text}' created"
      return .ok { f with rigs := f.rigs ++ [rig] }

/-- Reads how a rig is to start out: the word `cinematic`, or a preset. -/
def spawnOfText (text : String) : Except FleetError Spawn :=
  if Text.lowerAscii (Text.trim text.toList) = "cinematic".toList then .ok .cinematic
  else
    match Preset.ofText text with
    | .ok p => .ok (.preset p)
    | .error e => .error (.preset e)

/-- Creates a rig from a text. -/
def createOfText (f : Fleet) (id : RigId) (text : String) (roster : Roster Float32) :
    Logged (Except FleetError Fleet) :=
  match spawnOfText text with
  | .ok spawn => f.create id spawn roster
  | .error e => return .error e

/-- Closes a rig; the flag says whether there was one. -/
def close (f : Fleet) (id : RigId) : Logged (Fleet × Bool) :=
  match f.rig? id with
  | none => return (f, false)
  | some rig => do
    let gone ← rig.destroy .closed
    return ({ f.without id with pending := f.pending ++ gone.deliveries }, true)

/-- Shuts all rigs down. -/
def shutdownAll (f : Fleet) : Logged Fleet := do
  let gone ← Logged.each f.rigs (·.destroy .shutdown)
  return { f with rigs := [], pending := f.pending ++ gone.flatMap (·.deliveries) }

/-- Creates a rig for each preset in turn, under the name that goes with it. One that cannot be
created does not stop the others. -/
def createEach (f : Fleet) (roster : Roster Float32) :
    List (RigId × Preset) → Logged (Fleet × List (Except FleetError RigId))
  | [] => return (f, [])
  | (id, p) :: rest => do
    match ← f.create id (.preset p) roster with
    | .ok next =>
      let (last, results) ← next.createEach roster rest
      return (last, .ok id :: results)
    | .error e =>
      let (last, results) ← f.createEach roster rest
      return (last, .error e :: results)

/-- The notes of a group of presets: each one that failed, and how many did not. -/
def groupNotes (presets : List (RigId × Preset)) (results : List (Except FleetError RigId)) :
    List Note :=
  let failures := (presets.zip results).filterMap fun ((_, p), result) =>
    match result with
    | .ok _ => none
    | .error e => some ⟨.warn, s!"preset group entry '{p.toText}' failed: {e.message}"⟩
  let created := (results.filter (·.toBool)).length
  failures ++ [⟨.info, s!"applied preset group: {created}/{presets.length} rigs created"⟩]

/-- Creates a rig for each preset; the fleet is cleared first if its configuration says so. -/
def applyGroup (f : Fleet) (presets : List (RigId × Preset)) (roster : Roster Float32) :
    Logged (Fleet × List (Except FleetError RigId)) := do
  let cleared ← if f.config.clearOnPreset then f.shutdownAll else pure f
  let (last, results) ← cleared.createEach roster presets
  Logged.report (groupNotes presets results)
  return (last, results)

/-- Binds a rig to the player of a name. -/
def setTarget (f : Fleet) (id : RigId) (username : String) (roster : Roster Float32) :
    Logged (Except FleetError Fleet) :=
  match f.rig? id with
  | none => return .error (.rigNotFound id)
  | some rig =>
    match roster.find? username with
    | none => return .error (.unknownPlayer username)
    | some e => do
      match ← rig.bind? f.config e roster with
      | some bound => return .ok (f.replace bound)
      | none => return .error (.noValidTarget id)

/-- Gives a rig the follow mode of a name; a name that is none stands for smooth. -/
def setFollowMode (f : Fleet) (id : RigId) (name : String) :
    Logged (Except FleetError (Fleet × FollowMode)) := do
  if (FollowMode.ofName? name).isNone then
    Logged.note .warn s!"unknown follow mode '{name}', using smooth"
  let mode := FollowMode.ofNameOrSmooth name
  return (f.edit id (·.setFollowMode f.config mode)).map fun f => (f, mode)

/-- Gives a rig a field of view, cut to the configured range. -/
def setFov (f : Fleet) (id : RigId) (fov : Float32) : Except FleetError Fleet :=
  match f.rig? id with
  | none => .error (.rigNotFound id)
  | some rig =>
    match f.config.fov.clamp? fov with
    | some fov => .ok (f.replace { rig with body := rig.body.setFov fov })
    | none => .error .fovRange

/-- The script of a text that is not blank. -/
def scriptOf (text : Option String) : Logged (Option (Script Float32)) :=
  match text.filter fun text => !Text.isBlankText text with
  | some text => (fun report => some report.script) <$> Script.read text
  | none => return none

/-- Gives a rig to its script or to its follow mode. -/
def setCinematic (f : Fleet) (id : RigId) (state uiVisible : Bool) (text : Option String) :
    Logged (Except FleetError Fleet) :=
  match f.rig? id with
  | none => return .error (.rigNotFound id)
  | some rig => do
    let script ← scriptOf text
    let changed :=
      if state then rig.enterCinematic uiVisible script else rig.leaveCinematic uiVisible
    return .ok (f.replace changed)

/-- Starts a script on a rig and gives the problems of its text. -/
def runScript (f : Fleet) (id : RigId) (text : String) :
    Logged (Except FleetError (Fleet × List Script.Problem)) :=
  match f.rig? id with
  | none => return .error (.rigNotFound id)
  | some rig => do
    let report ← Script.read text
    return .ok (f.replace (rig.runScript report.script), report.problems)

/-- Stops the script of a rig. -/
def stopScript (f : Fleet) (id : RigId) : Except FleetError Fleet := f.edit id (·.stopScript)

/-- Shows or hides the windows of all rigs that are not cinematic, and counts them. -/
def setUiVisible (f : Fleet) (visible : Bool) : Fleet × Nat :=
  let changed := f.rigs.map (·.setUiVisible visible)
  ({ f with rigs := changed.map (·.1) }, (changed.filter (·.2)).length)

/-- Shows or hides the window of a rig; the flag says whether it was done. -/
def setRigUiVisible (f : Fleet) (id : RigId) (visible : Bool) :
    Except FleetError (Fleet × Bool) :=
  match f.rig? id with
  | none => .error (.rigNotFound id)
  | some rig =>
    let (changed, done) := rig.setUiVisible visible
    .ok (f.replace changed, done)

/-- Locks or unlocks the window of a rig. -/
def setLocked (f : Fleet) (id : RigId) (locked : Bool) : Except FleetError Fleet :=
  f.edit id (·.setLocked locked)

/-- Changes the placement of a rig as a region of the given unit. -/
def place (f : Fleet) (id : RigId) (unit : PlacementUnit)
    (change : Region Float32 → Region Float32) : Except FleetError Fleet :=
  f.edit id fun rig =>
    let region := change (rig.preset unit f.display).region
    rig.setPlacement (region.toPixels unit f.display f.config.surface.minPresetSize)

/-- Moves the window of a rig. -/
def setPosition (f : Fleet) (id : RigId) (unit : PlacementUnit) (x y : Float32) :
    Except FleetError Fleet :=
  f.place id unit fun r => { r with x, y }

/-- Gives the window of a rig another size. -/
def setSize (f : Fleet) (id : RigId) (unit : PlacementUnit) (width height : Float32) :
    Except FleetError Fleet :=
  f.place id unit fun r => { r with width, height }

/-- Gives the window of a rig another place and size. -/
def setRect (f : Fleet) (id : RigId) (unit : PlacementUnit) (region : Region Float32) :
    Except FleetError Fleet :=
  f.place id unit fun _ => region

/-- The text of the preset of a rig. -/
def presetText (f : Fleet) (id : RigId) (unit : PlacementUnit) : Except FleetError String :=
  match f.rig? id with
  | some rig => .ok (rig.preset unit f.display).toText
  | none => .error (.rigNotFound id)

/-- Gives the render surface of a rig another size; the flag says whether it was another one. -/
def resizeSurface (f : Fleet) (id : RigId) (width height : UInt32) :
    Except FleetError (Fleet × Bool) :=
  match f.rig? id with
  | none => .error (.rigNotFound id)
  | some rig =>
    let (changed, done) := rig.resizeSurface width height
    .ok (f.replace changed, done)

/-- Sets the size of the display. -/
def setDisplay (f : Fleet) (display : DisplaySize) : Fleet := { f with display }

/-- The distance from a rig to the anchor by which a player is followed. -/
def distance? (f : Fleet) (id : RigId) (name : String) (roster : Roster Float32) :
    Option Float32 := do
  let rig ← f.rig? id
  let position ← roster.playerPosition? name
  return rig.body.pose.position.distance position

/-- The frame of a rig in the last update. -/
def frame? (f : Fleet) (id : RigId) : Option Frame := f.frames.find? (·.rig == id)

/-- Lets a step of time go by for every rig, in the order of creation, and delivers the events since
the last update: those of rigs that were closed, then those of each rig, then the end of each rig
that has to go. -/
def update (f : Fleet) (dt : Float32) (roster : Roster Float32) : Logged Fleet := do
  let ticked ← Logged.each f.rigs fun rig => rig.tick f.config dt roster
  let doomed := ticked.filterMap fun (rig, reason) => reason.map fun reason => (rig, reason)
  let gone ← Logged.each doomed fun (rig, reason) => rig.delivered.destroy reason
  let rigs := (ticked.filter (·.2.isNone)).map (·.1.delivered)
  return { f with
    rigs
    pending := []
    frames := rigs.map (·.frame)
    events :=
      f.pending ++ ticked.flatMap (·.1.deliveries) ++ gone.flatMap (·.deliveries) }

end Fleet

end Skycam
