import Skycam.Proofs.Fleet.Live
import Skycam.Proofs.Fleet.Origin
import Skycam.Proofs.Placement.Pixels

/-!
# Moving a window and giving it another size

The placement of an open rig is edited through a captured region, and what the edit does not name
comes back from there as it was (`Fleet.run_place`), but for two things that the whole rectangle
brings with it: an extent below the least one of the configuration grows to it, and a surface that
was given a size of its own takes that of the window again (`Fleet.setPosition_resizes`).
-/

namespace Skycam

/-- Whether a surface has the size that it takes when it is to have this one. -/
def Surface.HasSize (s : Surface) (width height : UInt32) : Prop :=
  s.width = max width 1 ∧ s.height = max height 1

instance (s : Surface) (width height : UInt32) : Decidable (s.HasSize width height) :=
  inferInstanceAs (Decidable (_ ∧ _))

/-- A surface that is there keeps a size that it has, and takes another one as a new generation. -/
theorem Surface.resize?_eq {s : Surface} (h : s.released = false) (width height : UInt32) :
    (s.HasSize width height → s.resize? width height = none) ∧
      (¬s.HasSize width height → s.resize? width height =
        some ⟨max width 1, max height 1, s.generation + 1, false⟩) := by
  unfold resize? HasSize
  constructor
  · rintro ⟨hwidth, hheight⟩
    exact if_pos (.inr ⟨hwidth.symm, hheight.symm⟩)
  · intro hother
    have hresize : ¬(s.released = true ∨ max width 1 = s.width ∧ max height 1 = s.height) := by
      rintro (hreleased | ⟨hwidth, hheight⟩)
      · rw [h] at hreleased
        cases hreleased
      · exact hother ⟨hwidth.symm, hheight.symm⟩
    dsimp only
    rw [if_neg hresize, h]

namespace Rig

/-- The second rig is the first one after its window was placed anew: besides the placement and the
events, all that has changed is the surface, and only if it had another size than the window. -/
structure Resettled (r r' : Rig) : Prop extends r.Unmoved r' where
  /-- The follow mode. -/
  mode : r'.mode = r.mode
  /-- The field of view of the cameras. -/
  fov : r'.body.cameras.fov = r.body.cameras.fov
  /-- A surface of the size of the window stays. -/
  stays : r.surface.HasSize r'.placement.width r'.placement.height → r'.surface = r.surface
  /-- Any other surface takes the size of the window. -/
  resized : ¬r.surface.HasSize r'.placement.width r'.placement.height → r'.surface =
    ⟨max r'.placement.width 1, max r'.placement.height 1, r.surface.generation + 1, false⟩

theorem setPlacement_placement (r : Rig) (rect : PixelRect) :
    (r.setPlacement rect).placement = rect := by
  unfold setPlacement resizeSurface
  split <;> rfl

/-- To put the window elsewhere changes nothing but the placement and, if it had another size, the
surface. -/
theorem setPlacement_resettled {r : Rig} (h : r.surface.released = false) (rect : PixelRect) :
    r.Resettled (r.setPlacement rect) := by
  obtain ⟨hsame, hother⟩ := Surface.resize?_eq h rect.width rect.height
  have hplacement := setPlacement_placement r rect
  refine ⟨setPlacement_unmoved r rect, ?_, ?_, ?_, ?_⟩
  · unfold setPlacement resizeSurface
    split <;> rfl
  · unfold setPlacement resizeSurface
    split <;> rfl
  · intro hsize
    rw [hplacement] at hsize
    simp only [setPlacement, resizeSurface, hsame hsize]
  · intro hsize
    rw [hplacement] at hsize ⊢
    simp only [setPlacement, resizeSurface, hother hsize]
    rfl

end Rig

namespace Fleet

variable {f : Fleet} {r : Rig}

/-- An edit of a rig that is there succeeds, and the rig is found under its name as it was
changed. -/
theorem edit_eq (change : Rig → Rig) (hr : f.rig? r.id = some r) (hid : (change r).id = r.id) :
    f.edit r.id change = .ok (f.replace (change r)) ∧
      (f.replace (change r)).rig? r.id = some (change r) := by
  have hrig : f.rig? (change r).id = some r := by rw [hid, hr]
  have hfound := rig?_replace hrig
  rw [hid] at hfound
  exact ⟨by rw [edit, hr], hfound⟩

/-- To place the window of an open rig as a changed region always succeeds. The rectangle is the
region in pixels, and nothing else of the rig changes but its surface. -/
theorem place_resettled (hr : f.rig? r.id = some r) (hlive : r.Live) (unit : PlacementUnit)
    (change : Region Float32 → Region Float32) :
    let rect := (change (Region.ofPixels r.placement unit f.display)).toPixels unit f.display
      f.config.surface.minPresetSize
    ∃ placed, f.place r.id unit change = .ok (f.replace placed) ∧
      (f.replace placed).rig? r.id = some placed ∧ r.Resettled placed ∧
      placed.placement = rect := by
  intro rect
  have hsettled := Rig.setPlacement_resettled hlive.notReleased rect
  obtain ⟨hplace, hfound⟩ := edit_eq (fun r => r.setPlacement rect) hr hsettled.id
  refine ⟨r.setPlacement rect, ?_, hfound, hsettled, Rig.setPlacement_placement r rect⟩
  rw [← hplace, place, edit, edit, hr]
  rfl

/-- To move a window keeps its size, and to give it another size keeps its place. Nothing else of
the rig changes, unless its surface had another size than the window. -/
theorem run_place (config : Config) (ops : List (Operation × Roster Float32)) (r : Rig)
    (hr : r ∈ ((Fleet.new config).run ops).rigs) (hbounded : r.placement.Bounded)
    (unit : PlacementUnit) (a b : Float32) :
    let f := (Fleet.new config).run ops
    let least := config.surface.minPresetSize
    (∃ moved, f.setPosition r.id unit a b = .ok (f.replace moved) ∧
      (f.replace moved).rig? r.id = some moved ∧ r.Resettled moved ∧
      (unit.Spans f.display.width → moved.placement.width =
        if least ≤ r.placement.width then r.placement.width else Region.converted least) ∧
      (unit.Spans f.display.height → moved.placement.height =
        if least ≤ r.placement.height then r.placement.height else Region.converted least)) ∧
    ∃ sized, f.setSize r.id unit a b = .ok (f.replace sized) ∧
      (f.replace sized).rig? r.id = some sized ∧ r.Resettled sized ∧
      (unit.Spans f.display.width → sized.placement.x = r.placement.x) ∧
      (unit.Spans f.display.height → sized.placement.y = r.placement.y) := by
  intro f least
  obtain ⟨hrig, hlive⟩ := run_live config ops r hr
  have hconfig : f.config.surface.minPresetSize = least := by rw [run_config config ops]
  constructor
  · obtain ⟨moved, hdone, hfound, hsettled, hrect⟩ :=
      place_resettled hrig hlive unit fun region => { region with x := a, y := b }
    rw [hconfig, Region.toPixels_eq] at hrect
    refine ⟨moved, hdone, hfound, hsettled, fun hacross => ?_, fun hdown => ?_⟩
    · rw [hrect]
      exact (Region.across_ofPixels hbounded hacross least).2
    · rw [hrect]
      exact (Region.down_ofPixels hbounded hdown least).2
  · obtain ⟨sized, hdone, hfound, hsettled, hrect⟩ :=
      place_resettled hrig hlive unit fun region => { region with width := a, height := b }
    rw [hconfig, Region.toPixels_eq] at hrect
    refine ⟨sized, hdone, hfound, hsettled, fun hacross => ?_, fun hdown => ?_⟩
    · rw [hrect]
      exact (Region.across_ofPixels hbounded hacross least).1
    · rw [hrect]
      exact (Region.down_ofPixels hbounded hdown least).1

/-- A run that creates a rig before it goes on. -/
def windowRun (more : List Operation) : List (Operation × Roster Float32) :=
  (.create ⟨"cam"⟩ .follow, .lone "racer") :: more.map fun op => (op, .empty)

/-- A run after which a surface has another size than the window of its rig. -/
def resizedRun : List (Operation × Roster Float32) := windowRun [.resizeSurface ⟨"cam"⟩ 100 100]

/-- The window keeps its size, and its surface, which had another one, takes it again. -/
theorem run_place_resizedRun :
    ∃ r, ((Fleet.new .standard).run resizedRun).rigs = [r] ∧ r.placement.Bounded ∧
      ∃ moved, ((Fleet.new .standard).run resizedRun).setPosition r.id .fraction 0.25 0.1 =
          .ok (((Fleet.new .standard).run resizedRun).replace moved) ∧
        moved.placement.width = 320 ∧ moved.placement.height = 240 ∧
        moved.surface = ⟨320, 240, 2, false⟩ := by
  have hrigs : ((Fleet.new .standard).run resizedRun).rigs.map (fun r => (r.placement, r.surface)) =
      [(⟨0, 0, 320, 240⟩, ⟨100, 100, 1, false⟩)] := by decide +kernel
  have hdisplay : ((Fleet.new .standard).run resizedRun).display = ⟨1920, 1080⟩ := by
    decide +kernel
  obtain ⟨r, hr, hstate⟩ := List.map_eq_singleton_iff.mp hrigs
  obtain ⟨hplacement, hsurface⟩ := Prod.mk.inj hstate
  have hbounded : r.placement.Bounded := by
    rw [hplacement]
    exact ⟨by decide, by decide, by decide, by decide⟩
  obtain ⟨⟨moved, hdone, -, hsettled, hwidth, hheight⟩, -⟩ :=
    run_place .standard resizedRun r (by simp [hr]) hbounded .fraction 0.25 0.1
  rw [hplacement, hdisplay] at hwidth hheight
  have hwidth : moved.placement.width = 320 := hwidth fun _ => by decide
  have hheight : moved.placement.height = 240 := hheight fun _ => by decide
  have hresized := hsettled.resized
  rw [hwidth, hheight, hsurface] at hresized
  exact ⟨r, hr, hbounded, moved, hdone, hwidth, hheight, hresized (by decide)⟩

/-- The placement and the surface of the rig of a name. -/
def window? (f : Fleet) (id : RigId) : Option (PixelRect × Surface) :=
  (f.rig? id).map fun r => (r.placement, r.surface)

/-- The placement and the surface after the window of the rig of a name was moved. -/
def movedWindow? (f : Fleet) (id : RigId) (unit : PlacementUnit) (x y : Float32) :
    Option (PixelRect × Surface) :=
  (f.setPosition id unit x y).toOption.bind (·.window? id)

/-- To move a window can change sizes: that of a surface which had its own, that of a window below
the least size, and that of any window if the display has no pixels. -/
theorem setPosition_resizes :
    (∃ f, f = (Fleet.new .standard).run resizedRun ∧
      f.window? ⟨"cam"⟩ = some (⟨0, 0, 320, 240⟩, ⟨100, 100, 1, false⟩) ∧
      f.movedWindow? ⟨"cam"⟩ .pixels 5.0 6.0 =
        some (⟨5, 6, 320, 240⟩, ⟨320, 240, 2, false⟩)) ∧
    (∃ f, f = (Fleet.new { Config.standard with surface.minPresetSize := 500 }).run (windowRun []) ∧
      f.window? ⟨"cam"⟩ = some (⟨0, 0, 320, 240⟩, ⟨320, 240, 0, false⟩) ∧
      f.movedWindow? ⟨"cam"⟩ .pixels 5.0 6.0 =
        some (⟨5, 6, 500, 500⟩, ⟨500, 500, 1, false⟩)) ∧
    ∃ f, f = (Fleet.new .standard).run (windowRun [.setDisplay ⟨0, 0⟩]) ∧
      f.window? ⟨"cam"⟩ = some (⟨0, 0, 320, 240⟩, ⟨320, 240, 0, false⟩) ∧
      f.movedWindow? ⟨"cam"⟩ .fraction 0.25 0.1 =
        some (⟨0, 0, 100, 100⟩, ⟨100, 100, 1, false⟩) :=
  ⟨⟨_, rfl, by decide +kernel, by decide +kernel⟩, ⟨_, rfl, by decide +kernel, by decide +kernel⟩,
    _, rfl, by decide +kernel, by decide +kernel⟩

end Fleet

end Skycam
