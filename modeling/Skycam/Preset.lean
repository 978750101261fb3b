import Skycam.Follow.Mode
import Skycam.Number.Float32
import Skycam.Placement

/-!
# Presets

A preset is a follow mode, a preferred target and a placement. Its text has seven fields separated
by semicolons: mode, target, unit, x, y, width and height. Blank characters around the text and
around each field do not matter.
-/

namespace Skycam

namespace PlacementUnit

/-- The spelling of a unit. -/
def symbol : PlacementUnit → String
  | pixels => "px"
  | fraction => "%"

/-- The unit of a spelling. -/
def ofSymbol? (cs : List Char) : Option PlacementUnit :=
  [pixels, fraction].find? fun unit => unit.symbol.toList == cs

end PlacementUnit

/-- What can be wrong with the text of a preset. -/
inductive PresetError where
  /-- The number of fields is not seven. -/
  | fieldCount (found : Nat)
  /-- No such follow mode. -/
  | unknownMode (name : String)
  /-- No such unit. -/
  | unknownUnit (symbol : String)
  /-- A field that is no finite number. -/
  | invalidNumber (field value : String)
  deriving DecidableEq, Repr

/-- The name of a kind of error. -/
def PresetError.label : PresetError → String
  | fieldCount _ => "FieldCount"
  | unknownMode _ => "UnknownMode"
  | unknownUnit _ => "UnknownUnit"
  | invalidNumber _ _ => "InvalidNumber"

/-- The message of an error. -/
def PresetError.message : PresetError → String
  | fieldCount found => s!"preset needs 7 ';'-separated fields, got {found}"
  | unknownMode name => s!"unknown follow mode '{name}'"
  | unknownUnit symbol => s!"unknown unit '{symbol}', expected 'px' or '%'"
  | invalidNumber field value => s!"invalid number '{value}' for {field}"

/-- Reads a unit. -/
def PlacementUnit.ofText (cs : List Char) : Except PresetError PlacementUnit :=
  match ofSymbol? (Text.trim cs) with
  | some unit => .ok unit
  | none => .error (.unknownUnit (String.ofList (Text.trim cs)))

/-- How a rig is to be set up. -/
structure Preset where
  /-- The follow mode. -/
  mode : FollowMode
  /-- The name of the preferred target; empty for the first one that can be followed. -/
  target : String
  /-- The unit of the region. -/
  unit : PlacementUnit
  /-- Where the window lies. -/
  region : Region Float32
  deriving DecidableEq, Repr

namespace Preset

/-- Reads a number of a preset. -/
def number (field : String) (cs : List Char) : Except PresetError Float32 :=
  match Single.finiteOfChars? (Text.trim cs) with
  | some v => .ok v
  | none => .error (.invalidNumber field (String.ofList cs))

/-- Reads the text of a preset. -/
def ofText (text : String) : Except PresetError Preset :=
  let fields := Text.pieces (· == ';') (Text.trim text.toList)
  match fields with
  | [mode, target, unit, x, y, width, height] =>
    match FollowMode.ofChars? mode with
    | none => .error (.unknownMode (String.ofList (Text.trim mode)))
    | some mode => do
      let unit ← PlacementUnit.ofText unit
      let x ← number "x" x
      let y ← number "y" y
      let width ← number "width" width
      let height ← number "height" height
      return ⟨mode, String.ofList (Text.trim target), unit, ⟨x, y, width, height⟩⟩
  | _ => .error (.fieldCount fields.length)

/-- The text of a preset. -/
def toText (p : Preset) : String :=
  ";".intercalate
    [p.mode.name, p.target, p.unit.symbol, Single.plain p.region.x, Single.plain p.region.y,
      Single.plain p.region.width, Single.plain p.region.height]

/-- The rectangle of the window. -/
def toPixels (p : Preset) (display : DisplaySize) (minSize : UInt32) : PixelRect :=
  p.region.toPixels p.unit display minSize

/-- The preset of a placed rig. -/
def capture (mode : FollowMode) (target : String) (rect : PixelRect) (unit : PlacementUnit)
    (display : DisplaySize) : Preset :=
  ⟨mode, target, unit, Region.ofPixels rect unit display⟩

/-- Whether two presets agree, numbers being compared by value. -/
def agrees (p q : Preset) : Bool :=
  p.mode == q.mode && p.target == q.target && p.unit == q.unit && p.region.x == q.region.x &&
    p.region.y == q.region.y && p.region.width == q.region.width &&
    p.region.height == q.region.height

end Preset

end Skycam
