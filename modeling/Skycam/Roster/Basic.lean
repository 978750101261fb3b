import Skycam.Geometry.Pose
import Skycam.Logged
import Skycam.Text.Blank
import Skycam.Text.Lowercase

/-!
# Rosters

A roster lists the players in order, each with the live entity that stands for it, if there is one,
and knows the poses of the anchors of live entities. A handle names one anchor of one entity; it
can be followed as long as the roster has a pose for it.
-/

namespace Skycam

/-- The key of a live entity. -/
structure LiveId where
  /-- The number that the entity goes by. -/
  bits : UInt64
  deriving DecidableEq, Repr

/-- Which part of a live entity is meant. -/
inductive Anchor where
  /-- The place where the local viewer is ready to start. -/
  | reset
  /-- The root of a remote player. -/
  | body
  /-- The head of a remote player. -/
  | head
  deriving DecidableEq, Repr

/-- The name of an anchor in messages. -/
def Anchor.label : Anchor → String
  | reset => "Reset"
  | body => "Body"
  | head => "Head"

/-- An anchor of a live entity. -/
structure Handle where
  /-- The entity. -/
  live : LiveId
  /-- The part of it. -/
  anchor : Anchor
  deriving DecidableEq, Repr

/-- A player of the roster. -/
structure Entry where
  /-- The name. -/
  username : String
  /-- Whether this is the viewer at this display. -/
  isLocal : Bool
  /-- The live entity; none while there is none. -/
  live : Option LiveId
  deriving DecidableEq, Repr

/-- The handle by which a rig follows a player: the local viewer's place to start, anyone else's
body. -/
def Entry.followHandle? (e : Entry) : Option Handle :=
  e.live.map fun live => ⟨live, if e.isLocal then .reset else .body⟩

/-- The players and the poses of their anchors. -/
structure Roster (α : Type) where
  /-- The players in order. -/
  entries : List Entry
  /-- The pose of each anchor that has one. -/
  anchors : List (Handle × Pose α)
  deriving DecidableEq, Repr

namespace Roster

variable {α : Type}

/-- The roster without players. -/
def empty : Roster α := ⟨[], []⟩

/-- Whether there is no player. -/
def isEmpty (r : Roster α) : Bool := r.entries.isEmpty

/-- The names of the players. -/
def usernames (r : Roster α) : List String := r.entries.map (·.username)

/-- Adds a player at the end, or replaces the one of the same name. -/
def push (r : Roster α) (e : Entry) : Roster α :=
  if r.entries.any (·.username == e.username) then
    { r with entries := r.entries.map fun x => if x.username = e.username then e else x }
  else { r with entries := r.entries ++ [e] }

/-- Forgets the pose of an anchor. -/
def clearAnchor (r : Roster α) (h : Handle) : Roster α :=
  { r with anchors := r.anchors.filter fun a => a.1 ≠ h }

/-- Sets the pose of an anchor. -/
def setAnchor (r : Roster α) (h : Handle) (pose : Pose α) : Roster α :=
  { r with anchors := (h, pose) :: (r.clearAnchor h).anchors }

/-- The pose of an anchor. -/
def pose? (r : Roster α) (h : Handle) : Option (Pose α) := r.anchors.lookup h

/-- The player of exactly that name. -/
def entry? (r : Roster α) (username : String) : Option Entry :=
  r.entries.find? (·.username == username)

/-- Removes the player of exactly that name, with all poses of its live entity. -/
def remove (r : Roster α) (username : String) : Roster α :=
  match r.entry? username with
  | none => r
  | some e =>
    { entries := r.entries.filter (·.username ≠ username)
      anchors := r.anchors.filter fun a => some a.1.live ≠ e.live }

/-- The first player of a name, without regard to case or to blank characters around it. -/
def find? (r : Roster α) (name : String) : Option Entry :=
  let wanted := Text.lowercase (Text.trimmed name)
  r.entries.find? fun e => Text.lowercase e.username == wanted

/-- The first player whose follow handle has a pose, and that handle. -/
def firstValid? (r : Roster α) : Option (String × Handle) :=
  r.entries.findSome? fun e => do
    let h ← e.followHandle?
    let _ ← r.pose? h
    return (e.username, h)

/-- Where the anchor is by which a player is followed. -/
def playerPosition? (r : Roster α) (name : String) : Option (Vec3 α) := do
  let e ← r.find? name
  let h ← e.followHandle?
  let pose ← r.pose? h
  return pose.position

/-- The handle of a player to look at: the local viewer's place to start, anyone else's head. What
stands in the way is noted. -/
def lookHandle? (r : Roster α) (name : String) : Logged (Option Handle) :=
  match r.find? name with
  | none => do
    Logged.note .warn s!"look-at target '{name}' is not in the roster"
    return none
  | some e =>
    match e.live with
    | none => do
      Logged.note .error s!"look-at target '{e.username}' has no live entity"
      return none
    | some live =>
      let h : Handle := ⟨live, if e.isLocal then .reset else .head⟩
      if (r.pose? h).isSome then return some h
      else do
        Logged.note .error
          s!"look-at target '{e.username}' is missing its {h.anchor.label} anchor"
        return none

end Roster

end Skycam
