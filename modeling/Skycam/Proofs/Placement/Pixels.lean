import Skycam.Preset
import Skycam.Proofs.Number.Whole

/-!
# Placements there and back

A placement that is captured as a region and read as pixels again has the edges that it had
(`toPixels_capture`). For fractions this divides by a side of the display and multiplies by it
again, which `IsScale.round_div_mul` undoes by rounding; an extent is also held above the least one
(`pixelExtent_scaled`).
-/

namespace Skycam

open Single (IsScale)

/-- The numbers of a rectangle have few enough bits to be scaled. -/
structure PixelRect.Bounded (rect : PixelRect) : Prop where
  /-- The left edge is near the display. -/
  x : rect.x.toInt.natAbs < 2 ^ 22
  /-- The top edge is near the display. -/
  y : rect.y.toInt.natAbs < 2 ^ 22
  /-- The width is not too large. -/
  width : rect.width.toNat < 2 ^ 22
  /-- The height is not too large. -/
  height : rect.height.toNat < 2 ^ 22

/-! ## Extents -/

variable {n m : UInt32}

theorem toNat_max (n m : UInt32) : (max n m).toNat = max n.toNat m.toNat := by
  show (if n ≤ m then m else n).toNat = _
  split
  · next hle => exact (max_eq_right (UInt32.le_iff_toNat_le.mp hle)).symm
  · next hlt => exact (max_eq_left (UInt32.lt_iff_toNat_lt.mp (UInt32.not_le.mp hlt)).le).symm

theorem max_eq_of_le (h : m ≤ n) : max n m = n := by
  rw [← UInt32.toNat_inj, toNat_max]
  exact max_eq_left (UInt32.le_iff_toNat_le.mp h)

theorem max_eq_of_lt (h : n < m) : max n m = m := by
  rw [← UInt32.toNat_inj, toNat_max]
  exact max_eq_right (UInt32.lt_iff_toNat_lt.mp h).le

theorem isScale_ofUInt32 (h : 1 ≤ n) : IsScale (Scalar.ofUInt32 n) :=
  Single.isScale_ofNat (UInt32.le_iff_toNat_le.mp h) n.toNat_lt

/-! ## Units -/

namespace PlacementUnit

/-- What a number of this unit is multiplied by along a side of the display. -/
def scale (unit : PlacementUnit) (side : UInt32) : Float32 :=
  match unit with
  | pixels => 1.0
  | fraction => Scalar.ofUInt32 side

/-- The unit has an extent along a side: it is not a fraction of nothing. -/
def Spans (unit : PlacementUnit) (side : UInt32) : Prop := unit = fraction → 1 ≤ side

variable {unit : PlacementUnit} {side : UInt32}

theorem Spans.isScale (h : unit.Spans side) : IsScale (unit.scale side) := by
  cases unit with
  | pixels => exact Single.isScale_one
  | fraction => exact isScale_ofUInt32 (h rfl)

/-- A side without an extent counts as one pixel when a region is captured. -/
theorem Spans.scale_max (h : unit.Spans side) : unit.scale (max side 1) = unit.scale side := by
  cases unit with
  | pixels => rfl
  | fraction => exact congrArg Scalar.ofUInt32 (max_eq_of_le (h rfl))

end PlacementUnit

namespace Region

variable {side : Float32} {unit : PlacementUnit} {display : DisplaySize} {rect : PixelRect}

/-! ## One edge -/

/-- A position comes back from its scale if it has few enough bits. -/
theorem pixelPosition_scaled (h : IsScale side) {x : Int32} (hx : x.toInt.natAbs < 2 ^ 22) :
    pixelPosition (Scalar.ofInt32 x / side) side = x := by
  have hround : Single.round (Single.ofInt x.toInt / side * side) = Single.ofInt x.toInt :=
    h.round_div_mul hx (x.toInt < 0)
  calc pixelPosition (Scalar.ofInt32 x / side) side
      = Single.toInt32 (Single.round (Single.ofInt x.toInt / side * side)) := rfl
    _ = Int32.ofInt x.toInt := by rw [hround, Single.toInt32_ofInt (hx.trans (by norm_num))]
    _ = x := Int32.ofInt_toInt x

/-- An extent as it comes back from its conversion to a number. -/
def converted (n : UInt32) : UInt32 := Scalar.toUInt32 (Scalar.ofUInt32 n : Float32)

theorem converted_eq {n : UInt32} (h : n.toNat < 2 ^ 24) : converted n = n :=
  UInt32.toNat_inj.mp (Single.toNat_toUInt32_ofNat h)

/-- An extent of few bits stays if it is large enough. -/
theorem converted_max {n : UInt32} (hn : n.toNat < 2 ^ 24) (least : UInt32) :
    converted (max n least) = if least ≤ n then n else converted least := by
  split
  · next hle =>
    rw [max_eq_of_le hle, converted_eq hn]
  · next hlt =>
    rw [max_eq_of_lt (UInt32.not_le.mp hlt)]

/-- An extent that is scaled down and up again is what it was, unless the least one is larger. -/
theorem pixelExtent_scaled (h : IsScale side) {n : UInt32} (hn : n.toNat < 2 ^ 22)
    (least : UInt32) :
    pixelExtent (Scalar.ofUInt32 n / side) side (Scalar.ofUInt32 least) =
      if least ≤ n then n else converted least := by
  have hround := h.round_div_mul hn false
  rw [Single.signed, if_neg Bool.false_ne_true] at hround
  rw [← converted_max (hn.trans (by norm_num))]
  calc pixelExtent (Scalar.ofUInt32 n / side) side (Scalar.ofUInt32 least)
      = Single.toUInt32 (Scalar.max (Single.round (Single.ofNat n.toNat / side * side))
          (Single.ofNat least.toNat)) := rfl
    _ = Single.toUInt32 (Single.ofNat (max n least).toNat) := by
      rw [hround, Single.max_ofNat n.toNat_lt least.toNat_lt, toNat_max]
    _ = converted (max n least) := rfl

/-! ## Regions -/

/-- A region in pixels, with the scales of both sides written out. -/
theorem toPixels_eq (r : Region Float32) (least : UInt32) :
    r.toPixels unit display least =
      { x := pixelPosition r.x (unit.scale display.width)
        y := pixelPosition r.y (unit.scale display.height)
        width := pixelExtent r.width (unit.scale display.width) (Scalar.ofUInt32 least)
        height := pixelExtent r.height (unit.scale display.height) (Scalar.ofUInt32 least) } := by
  cases unit with
  | pixels => rfl
  | fraction => rfl

/-- A rectangle as a region, with the scales of both sides written out. -/
theorem ofPixels_eq :
    (ofPixels rect unit display : Region Float32) =
      { x := Scalar.ofInt32 rect.x / unit.scale (max display.width 1)
        y := Scalar.ofInt32 rect.y / unit.scale (max display.height 1)
        width := Scalar.ofUInt32 rect.width / unit.scale (max display.width 1)
        height := Scalar.ofUInt32 rect.height / unit.scale (max display.height 1) } := by
  cases unit with
  | pixels => rfl
  | fraction => rfl

/-- From left to right a captured rectangle is where it was, but its width may grow to the least
extent. -/
theorem across_ofPixels (hrect : rect.Bounded) (h : unit.Spans display.width) (least : UInt32) :
    pixelPosition (ofPixels rect unit display).x (unit.scale display.width) = rect.x ∧
      pixelExtent (ofPixels rect unit display).width (unit.scale display.width)
          (Scalar.ofUInt32 least) =
        if least ≤ rect.width then rect.width else converted least := by
  rw [ofPixels_eq, h.scale_max]
  exact ⟨pixelPosition_scaled h.isScale hrect.x, pixelExtent_scaled h.isScale hrect.width least⟩

/-- And so it is from top to bottom. -/
theorem down_ofPixels (hrect : rect.Bounded) (h : unit.Spans display.height) (least : UInt32) :
    pixelPosition (ofPixels rect unit display).y (unit.scale display.height) = rect.y ∧
      pixelExtent (ofPixels rect unit display).height (unit.scale display.height)
          (Scalar.ofUInt32 least) =
        if least ≤ rect.height then rect.height else converted least := by
  rw [ofPixels_eq, h.scale_max]
  exact ⟨pixelPosition_scaled h.isScale hrect.y, pixelExtent_scaled h.isScale hrect.height least⟩

end Region

namespace Preset

/-- A placement that was captured is found again, on any display and in either unit. -/
theorem toPixels_capture (mode : FollowMode) (target : String) (unit : PlacementUnit)
    (display : DisplaySize) (minSize : UInt32) (rect : PixelRect)
    (hdisplay : 1 ≤ display.width ∧ 1 ≤ display.height) (hrect : rect.Bounded)
    (hwidth : minSize ≤ rect.width) (hheight : minSize ≤ rect.height) :
    (capture mode target rect unit display).toPixels display minSize = rect := by
  have hacross : unit.Spans display.width := fun _ => hdisplay.1
  have hdown : unit.Spans display.height := fun _ => hdisplay.2
  obtain ⟨hx, hextent⟩ := Region.across_ofPixels hrect hacross minSize
  obtain ⟨hy, hextent'⟩ := Region.down_ofPixels hrect hdown minSize
  rw [if_pos hwidth] at hextent
  rw [if_pos hheight] at hextent'
  calc (capture mode target rect unit display).toPixels display minSize
      = (Region.ofPixels rect unit display).toPixels unit display minSize := rfl
    _ = rect := by rw [Region.toPixels_eq, hx, hy, hextent, hextent']

/-- On a display of 1366 by 768 pixels none of these numbers is a whole part of a side. -/
theorem toPixels_capture_laptop :
    (capture .smooth "racer" ⟨-4194303, 2097151, 4194303, 101⟩ .fraction ⟨1366, 768⟩).toPixels
      ⟨1366, 768⟩ 100 = ⟨-4194303, 2097151, 4194303, 101⟩ :=
  toPixels_capture .smooth "racer" .fraction ⟨1366, 768⟩ 100 _ ⟨by decide, by decide⟩
    ⟨by decide, by decide, by decide, by decide⟩ (by decide) (by decide)

end Preset

end Skycam
