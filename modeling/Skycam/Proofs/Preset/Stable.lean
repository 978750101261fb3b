import Skycam.Proofs.Preset.Text

/-!
# Presets that were read from a text

However a mode is spelled, whatever stands around a field and whatever a number looks like, the
preset that is read has finite numbers and a target without semicolons and without blank characters
at its ends (`Preset.Readable`). Such a preset is read from its own text again, so that writing it
settles the text once and for all (`Preset.ofText_stable`). Blank characters inside the target,
line feeds included, stay where they are.
-/

namespace Skycam

/-- Two steps of a reader succeed just when each of them does. -/
theorem bind_eq_ok_iff {ε α β : Type} {x : Except ε α} {f : α → Except ε β} {b : β} :
    x >>= f = .ok b ↔ ∃ a, x = .ok a ∧ f a = .ok b := by
  cases x with
  | error e =>
    constructor
    · intro h
      cases h
    · rintro ⟨a, h, -⟩
      cases h
  | ok a =>
    constructor
    · intro h
      exact ⟨a, rfl, h⟩
    · rintro ⟨a', h, h'⟩
      cases h
      exact h'

/-- A finite number is equal to itself in the sense of the machine. -/
theorem Single.beq_self {x : Float32} (h : x.isFinite = true) : (x == x) = true := by
  obtain ⟨negative, b, hview⟩ := isFinite_iff.mp h
  have hmodel : (x == x) = (view x).toUnpacked.beq (view x).toUnpacked := by
    rw [← unpack_eq]
    rfl
  rw [hmodel, hview, View.toUnpacked]
  split
  · have hsame : (compare b.exponent b.exponent).then (compare b.mantissa b.mantissa) = .eq := by
      rw [compare_eq_iff_eq.mpr rfl, compare_eq_iff_eq.mpr rfl]
      rfl
    cases negative with
    | false =>
      show (some _ == some Ordering.eq) = true
      rw [hsame]
      rfl
    | true =>
      show (some (Ordering.swap _) == some Ordering.eq) = true
      rw [hsame]
      rfl
  · rfl

namespace Preset

variable {text : String} {p : Preset} {x : Float32}

/-- The preset is its own reading: nothing of it is lost when it is written. -/
structure Readable (p : Preset) : Prop where
  /-- The numbers are finite. -/
  numbers : p.region.Finite
  /-- The target is no more than one field. -/
  whole : ';' ∉ p.target.toList
  /-- The target has no blank characters at its ends. -/
  bare : Text.trimmed p.target = p.target

theorem Readable.ofText_toText (h : p.Readable) : ofText p.toText = .ok p := by
  rw [Preset.ofText_toText h.numbers h.whole, h.bare]

theorem Readable.agrees_self (h : p.Readable) : p.agrees p = true := by
  obtain ⟨hx, hy, hwidth, hheight⟩ := h.numbers
  simp [agrees, Single.beq_self hx, Single.beq_self hy, Single.beq_self hwidth,
    Single.beq_self hheight]

/-- The numbers a field gives are finite. -/
theorem isFinite_of_number {field : String} {cs : List Char} (h : number field cs = .ok x) :
    x.isFinite = true := by
  unfold number at h
  split at h
  · next v hv =>
    obtain rfl := Except.ok.inj h
    exact (Option.filter_eq_some_iff.mp hv).2
  · cases h

/-- What a text consists of from which a preset is read. -/
theorem fields_of_ofText (h : ofText text = .ok p) :
    ∃ mode target unit x y width height,
      Text.pieces (· == ';') (Text.trim text.toList) = [mode, target, unit, x, y, width, height] ∧
      FollowMode.ofChars? mode = some p.mode ∧ p.target = String.ofList (Text.trim target) ∧
      PlacementUnit.ofText unit = .ok p.unit ∧ number "x" x = .ok p.region.x ∧
      number "y" y = .ok p.region.y ∧ number "width" width = .ok p.region.width ∧
      number "height" height = .ok p.region.height := by
  unfold ofText at h
  dsimp only at h
  split at h
  · next mode target unit x y width height hfields =>
    split at h
    · cases h
    · next m hmode =>
      obtain ⟨u, hunit, h⟩ := bind_eq_ok_iff.mp h
      obtain ⟨vx, hx, h⟩ := bind_eq_ok_iff.mp h
      obtain ⟨vy, hy, h⟩ := bind_eq_ok_iff.mp h
      obtain ⟨vwidth, hwidth, h⟩ := bind_eq_ok_iff.mp h
      obtain ⟨vheight, hheight, h⟩ := bind_eq_ok_iff.mp h
      obtain rfl := Except.ok.inj h
      exact ⟨mode, target, unit, x, y, width, height, hfields, hmode, rfl, hunit, hx, hy, hwidth,
        hheight⟩
  · cases h

/-- Whatever text a preset was read from, it is readable. -/
theorem readable_of_ofText (h : ofText text = .ok p) : p.Readable := by
  obtain ⟨mode, target, unit, x, y, width, height, hfields, -, htarget, -, hx, hy, hwidth,
    hheight⟩ := fields_of_ofText h
  constructor
  · exact ⟨isFinite_of_number hx, isFinite_of_number hy, isFinite_of_number hwidth,
      isFinite_of_number hheight⟩
  · rw [htarget, String.toList_ofList]
    intro hmem
    have hpiece : target ∈ Text.pieces (· == ';') (Text.trim text.toList) := by simp [hfields]
    have hkept : ';' ∈ target := Text.mem_of_mem_trim hmem
    simpa using Text.eq_false_of_mem_pieces hpiece _ hkept
  · rw [htarget, Text.trimmed, String.toList_ofList, Text.trim_trim]

/-- A preset that is read from any text is read from its own text again, as the same preset to the
last bit and so with the same text. -/
theorem ofText_stable (h : ofText text = .ok p) :
    ofText p.toText = .ok p ∧ p.agrees p = true ∧
      (ofText p.toText).map toText = .ok p.toText := by
  have hreadable : p.Readable := readable_of_ofText h
  have hread : ofText p.toText = .ok p := hreadable.ofText_toText
  refine ⟨hread, hreadable.agrees_self, ?_⟩
  rw [hread]
  rfl

/-- Capital letters, padding, a line feed inside the target, a sign, an exponent and a negative zero
in one text. -/
theorem ofText_stable_padded :
    let p : Preset := ⟨.smooth, "Racer\nOne", .pixels, ⟨10.0, 0.5, -0.0, 3.0⟩⟩
    ofText "\u3000 SMOOTH ;\tRacer\nOne ; px;+1e1; .5;-0;3.\n" = .ok p ∧
      p.toText = "smooth;Racer\nOne;px;10;0.5;-0;3" ∧ ofText p.toText = .ok p := by
  intro p
  have hread : ofText "\u3000 SMOOTH ;\tRacer\nOne ; px;+1e1; .5;-0;3.\n" = .ok p := by
    decide
  exact ⟨hread, by decide +kernel, (ofText_stable hread).1⟩

end Preset

end Skycam
