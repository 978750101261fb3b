import Skycam.Fleet.Operation
import Skycam.Geometry.Transform
import Skycam.Scene

/-!
# Stages

A stage puts a fleet into a scene. The scene has members, which are the players of the roster, and
markers, which are further anchors of members. With each frame the stage takes a snapshot of them,
performs the requests that were made, lets a step of time go by for the fleet, sends out what
the fleet tells, and brings the scene in line with the frames of the rigs.
-/

namespace Skycam

/-- A player in the scene. -/
structure Member where
  /-- The key of the entity. -/
  id : LiveId
  /-- The name of the player. -/
  username : String
  /-- Whether this is the local viewer. -/
  isLocal : Bool
  /-- Where the player is. -/
  transform : Transform
  deriving DecidableEq, Repr

/-- A further anchor of a member. -/
structure Marker where
  /-- The key of the entity. -/
  id : LiveId
  /-- The member. -/
  owner : LiveId
  /-- Which anchor it is. -/
  kind : Anchor
  /-- Where it is. -/
  transform : Transform
  deriving DecidableEq, Repr

/-- What can be asked of a stage from outside. -/
inductive Request where
  /-- Creates a rig from a text. -/
  | create (id : RigId) (preset : String)
  /-- Creates a rig for each preset, each under a name that was made for it. -/
  | applyGroup (presets : List (RigId × Preset))
  /-- Closes a rig. -/
  | close (id : RigId)
  /-- Closes all rigs. -/
  | closeAll
  /-- Binds a rig to a player. -/
  | setTarget (rig : RigId) (username : String)
  /-- Gives a rig a follow mode. -/
  | setFollowMode (rig : RigId) (mode : String)
  /-- Gives a rig a field of view. -/
  | setFov (rig : RigId) (fov : Float32)
  /-- Gives a rig to its script or to its follow mode. -/
  | setCinematic (rig : RigId) (state uiVisible : Bool) (script : Option String)
  /-- Starts a script. -/
  | runScript (rig : RigId) (script : String)
  /-- Stops a script. -/
  | stopScript (rig : RigId)
  /-- Shows or hides the windows of all rigs that are not cinematic. -/
  | setUi (visible : Bool)
  /-- Locks or unlocks a window. -/
  | setLocked (rig : RigId) (locked : Bool)
  /-- Gives a window another place and size. -/
  | setRect (rig : RigId) (unit : PlacementUnit) (region : Region Float32)
  deriving DecidableEq, Repr

/-- The operation on the fleet that a request stands for. -/
def Request.operation : Request → Operation
  | create id preset => .createOfText id preset
  | applyGroup presets => .applyGroup presets
  | close id => .close id
  | closeAll => .shutdownAll
  | setTarget rig username => .setTarget rig username
  | setFollowMode rig mode => .setFollowMode rig mode
  | setFov rig fov => .setFov rig fov
  | setCinematic rig state uiVisible script => .setCinematic rig state uiVisible script
  | runScript rig script => .runScript rig script
  | stopScript rig => .stopScript rig
  | setUi visible => .setUiVisible visible
  | setLocked rig locked => .setLocked rig locked
  | setRect rig unit region => .setRect rig unit region

/-- A fleet in a scene. -/
structure Stage where
  /-- The fleet. -/
  fleet : Fleet
  /-- What is to be seen of it. -/
  scene : Scene
  /-- The players in the scene. -/
  members : List Member
  /-- Their further anchors. -/
  markers : List Marker
  /-- The number of the next entity. -/
  nextEntity : Nat
  /-- The size of the display. -/
  display : DisplaySize
  /-- What was asked for since the last frame. -/
  requests : List Request
  /-- The roster of the last frame. -/
  roster : Roster Float32
  /-- The frames of the rigs, to be shown in the scene. -/
  staged : List Frame
  /-- The events that were sent out, oldest first. -/
  notices : List Event
  /-- Whether there was a frame yet; the first one lets no time go by. -/
  started : Bool
  deriving DecidableEq, Repr

namespace Stage

/-- A stage with nothing in it. -/
def new (config : Config) (hasImages : Bool) : Stage where
  fleet := Fleet.new config
  scene := Scene.new hasImages
  members := []
  markers := []
  nextEntity := 0
  display := DisplaySize.standard
  requests := []
  roster := Roster.empty
  staged := []
  notices := []
  started := false

/-- The key that the next entity gets. -/
def nextId (s : Stage) : LiveId := ⟨s.nextEntity.toUInt64⟩

/-- Adds a player. -/
def addMember (s : Stage) (username : String) (isLocal : Bool) (transform : Transform) : Stage :=
  { s with
    members := s.members ++ [⟨s.nextId, username, isLocal, transform⟩]
    nextEntity := s.nextEntity + 1 }

/-- Adds an anchor of a player. -/
def addMarker (s : Stage) (owner : LiveId) (kind : Anchor) (transform : Transform) : Stage :=
  { s with
    markers := s.markers ++ [⟨s.nextId, owner, kind, transform⟩]
    nextEntity := s.nextEntity + 1 }

/-- Moves an entity. -/
def move (s : Stage) (id : LiveId) (transform : Transform) : Stage :=
  { s with
    members := s.members.map fun m => if m.id = id then { m with transform } else m
    markers := s.markers.map fun m => if m.id = id then { m with transform } else m }

/-- Removes an item of a list; the last one takes its place. -/
def swapRemove {β : Type} (items : List β) (chosen : β → Bool) : List β :=
  match items.findIdx? chosen, items.getLast? with
  | some i, some last => (items.set i last).dropLast
  | _, _ => items

/-- Removes an entity; the flag says whether it was there. -/
def removeEntity (s : Stage) (id : LiveId) : Stage × Bool :=
  ({ s with
      members := swapRemove s.members (·.id == id)
      markers := swapRemove s.markers (·.id == id) },
    s.members.any (·.id == id) || s.markers.any (·.id == id))

/-- Asks for something, to be done with the next frame. -/
def request (s : Stage) (r : Request) : Stage := { s with requests := s.requests ++ [r] }

/-- Sets the size of the display. -/
def setDisplay (s : Stage) (display : DisplaySize) : Stage := { s with display }

/-- Enters a member into a roster. The place of the local viewer is also where it starts. -/
def enterMember (r : Roster Float32) (m : Member) : Roster Float32 :=
  let pose := m.transform.pose
  let entered := (r.push ⟨m.username, m.isLocal, some m.id⟩).setAnchor ⟨m.id, .body⟩ pose
  if m.isLocal then entered.setAnchor ⟨m.id, .reset⟩ pose else entered

/-- Enters a marker into a roster. -/
def enterMarker (r : Roster Float32) (m : Marker) : Roster Float32 :=
  r.setAnchor ⟨m.owner, m.kind⟩ m.transform.pose

/-- The roster of the members and the markers at present. A marker counts more than a member. -/
def snapshot (s : Stage) : Roster Float32 :=
  s.markers.foldl enterMarker (s.members.foldl enterMember Roster.empty)

/-- The longest step of time, in nanoseconds. -/
def maxStep : Nat := 250000000

/-- A number of microseconds as a step of time in seconds, cut to the longest one. -/
def stepOfMicros (micros : Nat) : Float32 :=
  Single.ofNat (min (micros * 1000) maxStep) / 1000000000.0

/-- Performs requests one after another. One that is refused does not stop the others. -/
def performAll (roster : Roster Float32) : Fleet → List Request → Logged Fleet
  | f, [] => return f
  | f, r :: rest => do
    let (next, _) ← f.perform r.operation roster
    performAll roster next rest

/-- Performs what was asked for since the last frame, in order, once the fleet knows the display. -/
def handleRequests (s : Stage) : Logged Stage := do
  let fleet ← performAll s.roster (s.fleet.setDisplay s.display) s.requests
  return { s with fleet, requests := [] }

/-- Lets a step of time go by for the fleet, keeps its frames and sends out its events. -/
def tickFleet (s : Stage) (dt : Float32) : Logged Stage := do
  let fleet ← s.fleet.update dt s.roster
  return { s with fleet, staged := fleet.frames, notices := s.notices ++ fleet.events }

/-- Brings the nodes in line with the frames. -/
def syncScene (s : Stage) : Stage := { s with scene := s.scene.sync s.staged }

/-- Shows the frames. -/
def applyFrames (s : Stage) : Stage := { s with scene := s.scene.apply s.staged }

/-- Runs a frame with a roster and a step of time. -/
def turn (s : Stage) (roster : Roster Float32) (dt : Float32) : Logged Stage := do
  let asked ← { s with roster }.handleRequests
  let ticked ← asked.tickFleet dt
  return ticked.syncScene.applyFrames

/-- Runs a frame with the roster of the moment. The first frame lets no time go by. -/
def frame (s : Stage) (micros : Nat) : Logged Stage :=
  { s with started := true }.turn s.snapshot (if s.started then stepOfMicros micros else 0.0)

end Stage

end Skycam
