import Skycam.Follow.Mode
import Skycam.Geometry.Pose

/-!
# Camera scripts

A script is a list of keyframes and a flag that says whether it starts over at its end. Keyframes
are plain data; `Playback` gives them their meaning.
-/

namespace Skycam

variable {α : Type}

/-- A change of a position or of Euler angles: to a value or by a value. -/
inductive Motion (α : Type) where
  /-- Replaces what is there. -/
  | absolute (value : Vec3 α)
  /-- Is added to what is there. -/
  | relative (value : Vec3 α)
  deriving DecidableEq, Repr

/-- The value of a motion of either kind. -/
def Motion.value : Motion α → Vec3 α
  | absolute v => v
  | relative v => v

/-- Whether a motion replaces what is there. -/
def Motion.isAbsolute : Motion α → Bool
  | absolute _ => true
  | relative _ => false

/-- The space in which a relative change of position is given. -/
inductive Space where
  /-- Along the axes of the world. -/
  | world
  /-- Along the axes of the camera. -/
  | body
  deriving DecidableEq, Repr

/-- The name of a space. -/
def Space.label : Space → String
  | world => "World"
  | body => "Local"

/-- A change of the field of view. -/
structure FovChange (α : Type) where
  /-- The new field of view, in degrees. -/
  value : α
  /-- Whether it is set when the keyframe starts and not reached by its end. -/
  immediate : Bool
  deriving DecidableEq, Repr

/-- How the cameras project the scene. -/
inductive Projection where
  /-- Farther things are smaller. -/
  | perspective
  /-- Distance does not matter. -/
  | orthographic
  deriving DecidableEq, Repr

/-- The name of a projection. -/
def Projection.label : Projection → String
  | perspective => "Perspective"
  | orthographic => "Orthographic"

/-- What a keyframe looks at. -/
inductive LookAt (α : Type) where
  /-- Nothing in particular: the rotation follows the keyframe's own motion. -/
  | none
  /-- A point of the world. -/
  | point (target : Vec3 α) (smooth : Bool)
  /-- A player, looked up in the roster whenever the keyframe starts. -/
  | player (name : String) (smooth : Bool)
  deriving DecidableEq, Repr

/-- Whether there is something to look at. -/
def LookAt.isActive : LookAt α → Bool
  | none => false
  | _ => true

/-- Whether the camera turns toward it in the course of the keyframe and not at once. -/
def LookAt.isSmooth : LookAt α → Bool
  | none => false
  | point _ smooth => smooth
  | player _ smooth => smooth

/-- One step of a script. -/
structure Keyframe (α : Type) where
  /-- The change of position. -/
  position : Motion α
  /-- The change of rotation, in Euler degrees. -/
  rotation : Motion α
  /-- How long the step takes, in seconds; a step of no duration is applied at once. -/
  duration : α
  /-- The space of a relative change of position. -/
  space : Space
  /-- The change of the field of view. -/
  fov : Option (FovChange α)
  /-- The projection from here on. -/
  projection : Option Projection
  /-- What the camera looks at meanwhile. -/
  lookAt : LookAt α
  /-- The mode in which the rig follows its target meanwhile, if it does. -/
  follow : Option FollowMode
  deriving DecidableEq, Repr

/-- The keyframe that changes nothing and takes no time. -/
def Keyframe.still [Scalar α] : Keyframe α where
  position := .relative Vec3.zero
  rotation := .relative Vec3.zero
  duration := 0.0
  space := .world
  fov := none
  projection := none
  lookAt := .none
  follow := none

/-- Whether the script itself moves the camera during the keyframe. -/
def Keyframe.isCinematic (k : Keyframe α) : Bool := k.follow.isNone

/-- Keyframes in order. -/
structure Script (α : Type) where
  /-- The steps. -/
  keyframes : List (Keyframe α)
  /-- Whether the first step follows the last one. -/
  looping : Bool
  deriving DecidableEq, Repr

namespace Script

/-- The script without keyframes. -/
def empty : Script α := ⟨[], false⟩

/-- The number of keyframes. -/
def length (s : Script α) : Nat := s.keyframes.length

/-- Whether there is no keyframe. -/
def isEmpty (s : Script α) : Bool := s.keyframes.isEmpty

/-- The time that the keyframes take one after another. -/
def totalDuration [Scalar α] (s : Script α) : α :=
  s.keyframes.foldl (fun total k => total + Scalar.max k.duration 0.0) 0.0

end Script

end Skycam
