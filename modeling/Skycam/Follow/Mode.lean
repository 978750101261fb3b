import Skycam.Text.Blank

/-!
# Follow modes

The five ways in which a rig keeps up with its target, and their names. A name is looked up without
regard to ASCII case or to blank characters around it.
-/

namespace Skycam

/-- How a rig follows its target. -/
inductive FollowMode where
  /-- Eases toward a place behind the target, looking ahead of it. -/
  | smooth
  /-- Keeps to that place exactly. -/
  | strict
  /-- Stays behind the target at a fixed tilt. -/
  | locked
  /-- Looks from the front bumper. -/
  | bumper
  /-- Looks from the driver's eyes. -/
  | first
  deriving DecidableEq, Repr

namespace FollowMode

/-- Every mode. -/
def all : List FollowMode := [smooth, strict, locked, bumper, first]

/-- The name of a mode. -/
def name : FollowMode → String
  | smooth => "smooth"
  | strict => "strict"
  | locked => "locked"
  | bumper => "bumper"
  | first => "first"

/-- A mode in messages. -/
def label : FollowMode → String
  | smooth => "Smooth"
  | strict => "Strict"
  | locked => "Locked"
  | bumper => "Bumper"
  | first => "First"

/-- The mode of a name. -/
def ofChars? (cs : List Char) : Option FollowMode :=
  all.find? fun mode => mode.name.toList == Text.lowerAscii (Text.trim cs)

/-- The mode of a name. -/
def ofName? (s : String) : Option FollowMode := ofChars? s.toList

/-- The mode of a name, smooth when there is no such mode. -/
def ofNameOrSmooth (s : String) : FollowMode := (ofName? s).getD smooth

end FollowMode

end Skycam
