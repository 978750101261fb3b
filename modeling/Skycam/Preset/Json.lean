import Skycam.Json.Decode
import Skycam.Preset

/-!
# Presets as JSON

The parts of a preset, the sizes that go with it and whole presets as JSON values. Every field of a
record must be there.
-/

namespace Skycam

open Json

/-- Reads the name of a follow mode, spelled exactly. -/
def FollowMode.ofJson? (v : Value) : Option FollowMode :=
  v.oneOf? (FollowMode.all.map fun mode => (mode.name, mode))

/-- The name of a follow mode. -/
def FollowMode.toJson (mode : FollowMode) : Value := .text mode.name

/-- The names of the units. -/
def PlacementUnit.names : List (String × PlacementUnit) :=
  [("Pixels", pixels), ("Fraction", fraction)]

/-- Reads the name of a unit. -/
def PlacementUnit.ofJson? (v : Value) : Option PlacementUnit := v.oneOf? names

/-- The name of a unit. -/
def PlacementUnit.toJson : PlacementUnit → Value
  | pixels => .text "Pixels"
  | fraction => .text "Fraction"

/-- Reads a rectangle of pixels. -/
def PixelRect.ofJson? (v : Value) : Option PixelRect := do
  match ← v.fields? ["x", "y", "width", "height"] with
  | [x, y, width, height] =>
    return {
      x := ← required Value.signedWord? x
      y := ← required Value.signedWord? y
      width := ← required Value.word? width
      height := ← required Value.word? height }
  | _ => none

/-- A rectangle of pixels with every field. -/
def PixelRect.toJson (r : PixelRect) : Value :=
  .record [("x", .ofInt r.x.toInt), ("y", .ofInt r.y.toInt), ("width", .ofInt r.width.toNat),
    ("height", .ofInt r.height.toNat)]

/-- Reads the size of a display. -/
def DisplaySize.ofJson? (v : Value) : Option DisplaySize := do
  match ← v.fields? ["width", "height"] with
  | [width, height] =>
    return { width := ← required Value.word? width, height := ← required Value.word? height }
  | _ => none

/-- The size of a display with every field. -/
def DisplaySize.toJson (d : DisplaySize) : Value :=
  .record [("width", .ofInt d.width.toNat), ("height", .ofInt d.height.toNat)]

/-- Reads a preset. -/
def Preset.ofJson? (v : Value) : Option Preset := do
  match ← v.fields? ["mode", "target", "unit", "x", "y", "width", "height"] with
  | [mode, target, unit, x, y, width, height] =>
    return {
      mode := ← required FollowMode.ofJson? mode
      target := ← required Value.text? target
      unit := ← required PlacementUnit.ofJson? unit
      region := {
        x := ← required Value.single? x
        y := ← required Value.single? y
        width := ← required Value.single? width
        height := ← required Value.single? height } }
  | _ => none

/-- A preset with every field. -/
def Preset.toJson (p : Preset) : Value :=
  .record [("mode", p.mode.toJson), ("target", .text p.target), ("unit", p.unit.toJson),
    ("x", .ofSingle p.region.x), ("y", .ofSingle p.region.y),
    ("width", .ofSingle p.region.width), ("height", .ofSingle p.region.height)]

end Skycam
