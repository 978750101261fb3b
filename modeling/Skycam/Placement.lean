import Skycam.Number.Scalar

/-!
# Placements

Where the window of a rig lies on the display: a rectangle in pixels, or a region whose numbers are
pixels or fractions of the display. `Region.toPixels` and `Region.ofPixels` go back and forth.
-/

namespace Skycam

/-- The size of the display, in pixels. -/
structure DisplaySize where
  /-- From left to right. -/
  width : UInt32
  /-- From top to bottom. -/
  height : UInt32
  deriving DecidableEq, Repr

/-- The size of the display until one is set. -/
def DisplaySize.standard : DisplaySize := ⟨1920, 1080⟩

/-- A rectangle of pixels; the origin is the top left corner of the display. -/
structure PixelRect where
  /-- The left edge. -/
  x : Int32
  /-- The top edge. -/
  y : Int32
  /-- From left to right. -/
  width : UInt32
  /-- From top to bottom. -/
  height : UInt32
  deriving DecidableEq, Repr

/-- What the numbers of a region count. -/
inductive PlacementUnit where
  /-- Pixels. -/
  | pixels
  /-- Parts of the width and the height of the display. -/
  | fraction
  deriving DecidableEq, Repr

/-- A rectangle in some unit. -/
structure Region (α : Type) where
  /-- The left edge. -/
  x : α
  /-- The top edge. -/
  y : α
  /-- From left to right. -/
  width : α
  /-- From top to bottom. -/
  height : α
  deriving DecidableEq, Repr

namespace Region

variable {α : Type} [Scalar α]

/-- A position in pixels. -/
def pixelPosition (v side : α) : Int32 := Scalar.toInt32 (Scalar.round (v * side))

/-- An extent in pixels, not below `minSize`. -/
def pixelExtent (v side minSize : α) : UInt32 :=
  Scalar.toUInt32 (Scalar.max (Scalar.round (v * side)) minSize)

/-- The rectangle of a region; its width and its height are not below `minSize`. -/
def toPixels (r : Region α) (unit : PlacementUnit) (display : DisplaySize) (minSize : UInt32) :
    PixelRect :=
  let (across, down) : α × α :=
    match unit with
    | .pixels => (1.0, 1.0)
    | .fraction => (Scalar.ofUInt32 display.width, Scalar.ofUInt32 display.height)
  let least := Scalar.ofUInt32 minSize
  { x := pixelPosition r.x across
    y := pixelPosition r.y down
    width := pixelExtent r.width across least
    height := pixelExtent r.height down least }

/-- The region of a rectangle. A display without an extent counts as one pixel. -/
def ofPixels (rect : PixelRect) (unit : PlacementUnit) (display : DisplaySize) : Region α :=
  let (across, down) : α × α :=
    match unit with
    | .pixels => (1.0, 1.0)
    | .fraction => (Scalar.ofUInt32 (max display.width 1), Scalar.ofUInt32 (max display.height 1))
  { x := Scalar.ofInt32 rect.x / across
    y := Scalar.ofInt32 rect.y / down
    width := Scalar.ofUInt32 rect.width / across
    height := Scalar.ofUInt32 rect.height / down }

end Region

end Skycam
