import Skycam.Fleet.Basic

/-!
# Operations on fleets

All that changes a fleet, as data: an operation is performed on a fleet with the roster of the
moment and gives an answer. A fleet is what a list of operations has made of the empty one.
-/

namespace Skycam

/-- A change that can be asked of a fleet. -/
inductive Operation where
  /-- Creates a rig. -/
  | create (id : RigId) (spawn : Spawn)
  /-- Creates a rig from a text. -/
  | createOfText (id : RigId) (text : String)
  /-- Creates a rig for each preset, each under a name that was made for it. -/
  | applyGroup (presets : List (RigId × Preset))
  /-- Closes a rig. -/
  | close (id : RigId)
  /-- Shuts all rigs down. -/
  | shutdownAll
  /-- Binds a rig to a player. -/
  | setTarget (id : RigId) (username : String)
  /-- Gives a rig a follow mode. -/
  | setFollowMode (id : RigId) (name : String)
  /-- Gives a rig a field of view. -/
  | setFov (id : RigId) (fov : Float32)
  /-- Gives a rig to its script or to its follow mode. -/
  | setCinematic (id : RigId) (state uiVisible : Bool) (script : Option String)
  /-- Starts a script. -/
  | runScript (id : RigId) (text : String)
  /-- Stops a script. -/
  | stopScript (id : RigId)
  /-- Shows or hides all windows. -/
  | setUiVisible (visible : Bool)
  /-- Shows or hides a window. -/
  | setRigUiVisible (id : RigId) (visible : Bool)
  /-- Locks or unlocks a window. -/
  | setLocked (id : RigId) (locked : Bool)
  /-- Moves a window. -/
  | setPosition (id : RigId) (unit : PlacementUnit) (x y : Float32)
  /-- Gives a window another size. -/
  | setSize (id : RigId) (unit : PlacementUnit) (width height : Float32)
  /-- Gives a window another place and size. -/
  | setRect (id : RigId) (unit : PlacementUnit) (region : Region Float32)
  /-- Gives a render surface another size. -/
  | resizeSurface (id : RigId) (width height : UInt32)
  /-- Sets the size of the display. -/
  | setDisplay (display : DisplaySize)
  /-- Lets a step of time go by. -/
  | update (dt : Float32)
  deriving DecidableEq, Repr

/-- What an operation answers. -/
inductive Answer where
  /-- It was done, and there is nothing to say. -/
  | done
  /-- It was done, and something is so or not. -/
  | flag (b : Bool)
  /-- It was done to a number of rigs. -/
  | count (n : Nat)
  /-- It made a rig. -/
  | created (id : RigId)
  /-- It made rigs or failed to. -/
  | group (results : List (Except FleetError RigId))
  /-- It chose a follow mode. -/
  | mode (m : FollowMode)
  /-- It read a script with problems. -/
  | problems (ps : List Script.Problem)
  /-- It was refused. -/
  | refused (e : FleetError)

namespace Fleet

/-- The fleet after a request that may have been refused, and the answer. -/
def settle {α : Type} (f : Fleet) (result : Except FleetError α) (fleet : α → Fleet)
    (answer : α → Answer) : Fleet × Answer :=
  match result with
  | .ok a => (fleet a, answer a)
  | .error e => (f, .refused e)

/-- The fleet after a request that has no answer of its own. -/
def settleDone (f : Fleet) (result : Except FleetError Fleet) : Fleet × Answer :=
  f.settle result (fun f => f) (fun _ => .done)

/-- The fleet after a request whose answer is a flag. -/
def settleFlag (f : Fleet) (result : Except FleetError (Fleet × Bool)) : Fleet × Answer :=
  f.settle result (·.1) (fun a => .flag a.2)

/-- The fleet after the creation of a rig. -/
def settleCreated (f : Fleet) (id : RigId) (result : Except FleetError Fleet) : Fleet × Answer :=
  f.settle result (fun f => f) (fun _ => .created id)

/-- Performs an operation. -/
def perform (f : Fleet) (op : Operation) (roster : Roster Float32) : Logged (Fleet × Answer) :=
  match op with
  | .create id spawn => f.settleCreated id <$> f.create id spawn roster
  | .createOfText id text => f.settleCreated id <$> f.createOfText id text roster
  | .applyGroup presets => do
    let (fleet, results) ← f.applyGroup presets roster
    return (fleet, .group results)
  | .close id => do
    let (fleet, wasThere) ← f.close id
    return (fleet, .flag wasThere)
  | .shutdownAll => (fun fleet => (fleet, .done)) <$> f.shutdownAll
  | .setTarget id username => f.settleDone <$> f.setTarget id username roster
  | .setFollowMode id name =>
    (fun result => f.settle result (·.1) (fun a => .mode a.2)) <$> f.setFollowMode id name
  | .setFov id fov => return f.settleDone (f.setFov id fov)
  | .setCinematic id state uiVisible script =>
    f.settleDone <$> f.setCinematic id state uiVisible script
  | .runScript id text =>
    (fun result => f.settle result (·.1) (fun a => .problems a.2)) <$> f.runScript id text
  | .stopScript id => return f.settleDone (f.stopScript id)
  | .setUiVisible visible =>
    let (fleet, n) := f.setUiVisible visible
    return (fleet, .count n)
  | .setRigUiVisible id visible => return f.settleFlag (f.setRigUiVisible id visible)
  | .setLocked id locked => return f.settleDone (f.setLocked id locked)
  | .setPosition id unit x y => return f.settleDone (f.setPosition id unit x y)
  | .setSize id unit width height => return f.settleDone (f.setSize id unit width height)
  | .setRect id unit region => return f.settleDone (f.setRect id unit region)
  | .resizeSurface id width height => return f.settleFlag (f.resizeSurface id width height)
  | .setDisplay display => return (f.setDisplay display, .done)
  | .update dt => (fun fleet => (fleet, .done)) <$> f.update dt roster

end Fleet

end Skycam
