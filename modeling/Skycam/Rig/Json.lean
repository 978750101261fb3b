import Skycam.Json.Decode
import Skycam.Rig.Event

/-!
# Events as JSON

An event is written as an object with one field, which is named for what happened and holds the rig
and whatever else there is to tell.
-/

namespace Skycam

open Json

/-- The name of a change. -/
def RigChange.label : RigChange → String
  | created _ => "Created"
  | targetBound _ => "TargetBound"
  | targetLost _ _ => "TargetLost"
  | recovered _ _ => "Recovered"
  | followModeChanged _ => "FollowModeChanged"
  | keyframeStarted _ => "KeyframeStarted"
  | playbackFinished => "PlaybackFinished"
  | surfaceResized _ _ => "SurfaceResized"
  | destroyed _ => "Destroyed"

/-- What there is to tell of a change. -/
def RigChange.details : RigChange → List (String × Value)
  | created cinematic => [("cinematic", .bool cinematic)]
  | targetBound username => [("username", .text username)]
  | targetLost username reason => [("username", .text username), ("reason", .text reason)]
  | recovered username after => [("username", .text username), ("after", .ofSingle after)]
  | followModeChanged mode => [("mode", .text mode.name)]
  | keyframeStarted index => [("index", .ofInt index)]
  | playbackFinished => []
  | surfaceResized width height => [("width", .ofInt width.toNat), ("height", .ofInt height.toNat)]
  | destroyed reason => [("reason", .text reason.label)]

/-- An event with everything that there is to tell of it. -/
def Event.toJson (e : Event) : Value :=
  .record [(e.change.label, .record (("rig", .text e.rig.text) :: e.change.details))]

end Skycam
