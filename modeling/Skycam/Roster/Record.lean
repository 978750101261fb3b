import Skycam.Config
import Skycam.Geometry.Rotation
import Skycam.Roster.Basic

/-!
# Roster records

The form in which rosters are stored: a list of players, each with the poses of its anchors as
positions and Euler angles. Of two records of the same name, and of two anchors of the same kind,
the later one counts.
-/

namespace Skycam

open Json

/-- The name of an anchor. -/
def Anchor.name : Anchor → String
  | reset => "reset"
  | body => "body"
  | head => "head"

/-- Reads the name of an anchor. -/
def Anchor.ofJson? (v : Value) : Option Anchor :=
  v.oneOf? ([reset, body, head].map fun anchor => (anchor.name, anchor))

/-- The name of an anchor. -/
def Anchor.toJson (anchor : Anchor) : Value := .text anchor.name

/-- The pose of an anchor as it is stored. -/
structure AnchorRecord where
  /-- Which anchor. -/
  kind : Anchor
  /-- Where it is. -/
  position : Vec3 Float32
  /-- How it is turned, in Euler degrees. -/
  rotation : Vec3 Float32
  deriving DecidableEq, Repr

namespace AnchorRecord

/-- The pose of a record. -/
def pose (a : AnchorRecord) : Pose Float32 := Pose.ofEulerDegrees a.position a.rotation

/-- Reads an anchor; the rotation may be missing. -/
def ofJson? (v : Value) : Option AnchorRecord := do
  match ← v.fields? ["kind", "position", "rotation"] with
  | [kind, position, rotation] =>
    return {
      kind := ← required Anchor.ofJson? kind
      position := ← required Vec3.ofJson? position
      rotation := ← optional Vec3.zero Vec3.ofJson? rotation }
  | _ => none

/-- An anchor with every field. -/
def toJson (a : AnchorRecord) : Value :=
  .record [("kind", a.kind.toJson), ("position", a.position.toJson),
    ("rotation", a.rotation.toJson)]

end AnchorRecord

/-- A player as it is stored. -/
structure RosterRecord where
  /-- The name. -/
  username : String
  /-- Whether this is the local viewer. -/
  isLocal : Bool
  /-- The live entity. -/
  live : Option LiveId
  /-- The anchors of the live entity. -/
  anchors : List AnchorRecord
  deriving DecidableEq, Repr

namespace RosterRecord

/-- Reads a live entity or its absence. -/
def liveOfJson? : Value → Option (Option LiveId)
  | .null => some none
  | v => v.doubleWord?.map fun bits => some ⟨bits⟩

/-- Reads a player; all but the name may be missing. -/
def ofJson? (v : Value) : Option RosterRecord := do
  match ← v.fields? ["username", "local", "live", "anchors"] with
  | [username, isLocal, live, anchors] =>
    return {
      username := ← required Value.text? username
      isLocal := ← optional false Value.bool? isLocal
      live := ← optional none liveOfJson? live
      anchors := ← optional [] (Value.list? AnchorRecord.ofJson?) anchors }
  | _ => none

/-- A player with every field. -/
def toJson (r : RosterRecord) : Value :=
  .record [("username", .text r.username), ("local", .bool r.isLocal),
    ("live", match r.live with
      | some live => .ofInt live.bits.toNat
      | none => .null),
    ("anchors", .array (r.anchors.map AnchorRecord.toJson))]

/-- Reads a list of players. -/
def listOfJson? (v : Value) : Option (List RosterRecord) := v.list? ofJson?

/-- A list of players. -/
def listToJson (rs : List RosterRecord) : Value := .array (rs.map toJson)

end RosterRecord

namespace Roster

/-- Enters a record. -/
def enter (r : Roster Float32) (record : RosterRecord) : Roster Float32 :=
  let withAnchors : Roster Float32 :=
    match record.live with
    | some live => record.anchors.foldl (fun r a => r.setAnchor ⟨live, a.kind⟩ a.pose) r
    | none => r
  withAnchors.push ⟨record.username, record.isLocal, record.live⟩

/-- The roster of a list of records. -/
def ofRecords (rs : List RosterRecord) : Roster Float32 := rs.foldl enter empty

end Roster

end Skycam
