import Skycam.Preset
import Skycam.Proofs.Number.Finite
import Skycam.Proofs.Number.Written
import Skycam.Proofs.Text.Lines

/-!
# Written presets are read again

The text of a preset with finite numbers falls apart into its fields wherever a semicolon stands. No
field but the target can have one, so a target without a semicolon is read again, though without the
blank characters around it, and all other fields are read as they were (`Preset.ofText_toText`). A
semicolon in the target makes for fields that nothing expects (`Preset.ofText_toText_of_mem`).

A preset that was taken of a placed window has finite numbers (`Region.ofPixels_finite`).
-/

namespace Skycam

/-! ## The fields -/

theorem FollowMode.ofChars?_name (mode : FollowMode) :
    FollowMode.ofChars? mode.name.toList = some mode := by
  cases mode <;> decide

theorem FollowMode.isBlank_of_mem_name {mode : FollowMode} {c : Char}
    (hc : c ∈ mode.name.toList) : Text.isBlank c = false := by
  have hall : mode.name.toList.all (!Text.isBlank ·) = true := by
    cases mode <;> decide
  simpa using List.all_eq_true.mp hall c hc

theorem PlacementUnit.ofText_symbol (unit : PlacementUnit) :
    PlacementUnit.ofText unit.symbol.toList = .ok unit := by
  cases unit <;> decide

namespace Single

variable {x : Float32}

/-- A printed number has no blanks, so trimming its field does nothing. -/
theorem isBlank_of_mem_plain (h : x.isFinite = true) {c : Char} (hc : c ∈ (plain x).toList) :
    Text.isBlank c = false := by
  rcases mem_plain h hc with rfl | rfl | hdigit
  · decide
  · decide
  · have hlow : 48 ≤ c.toNat := (Char.isDigit_iff_toNat.mp hdigit).1
    have hhigh : c.toNat ≤ 57 := toNat_le_of_isDigit hdigit
    unfold Text.isBlank
    simp only [Bool.or_eq_false_iff, Bool.and_eq_false_iff, decide_eq_false_iff_not,
      beq_eq_false_iff_ne]
    omega

theorem semicolon_not_mem_plain (h : x.isFinite = true) : ';' ∉ (plain x).toList := by
  intro hmem
  rcases mem_plain h hmem with hminus | hpoint | hdigit
  · exact absurd hminus (by decide)
  · exact absurd hpoint (by decide)
  · exact absurd hdigit (by decide)

end Single

namespace Preset

/-- A number is read from its plain form, whatever field it is for. -/
theorem number_plain {x : Float32} (h : x.isFinite = true) (field : String) :
    number field (Single.plain x).toList = .ok x := by
  have htrim := Text.trim_eq_self_of_forall fun _ hc => Single.isBlank_of_mem_plain h hc
  rw [number, htrim, Single.finiteOfChars?_plain h]

end Preset

/-! ## The numbers -/

/-- All numbers of a region are finite. -/
structure Region.Finite (r : Region Float32) : Prop where
  x : r.x.isFinite = true
  y : r.y.isFinite = true
  width : r.width.isFinite = true
  height : r.height.isFinite = true

/-- A window has finite numbers in either unit, because what they are divided by is at least one. -/
theorem Region.ofPixels_finite (rect : PixelRect) (unit : PlacementUnit) (display : DisplaySize) :
    (Region.ofPixels rect unit display : Region Float32).Finite := by
  obtain ⟨sx, left, hx⟩ := Single.exists_view_ofInt32 rect.x
  obtain ⟨sy, top, hy⟩ := Single.exists_view_ofInt32 rect.y
  obtain ⟨width, hwidth, -⟩ := Single.exists_view_ofUInt32 rect.width
  obtain ⟨height, hheight, -⟩ := Single.exists_view_ofUInt32 rect.height
  cases unit with
  | pixels =>
    have hone : 1 ≤ Binary.toRat ⟨2 ^ 23, -23⟩ := by norm_num [Binary.toRat]
    exact ⟨Single.isFinite_div hx Single.view_one hone, Single.isFinite_div hy Single.view_one hone,
      Single.isFinite_div hwidth Single.view_one hone,
      Single.isFinite_div hheight Single.view_one hone⟩
  | fraction =>
    -- a display without an extent counts as one pixel
    have hpos : ∀ side : UInt32, 0 < max side 1 := by
      intro side
      show 0 < if side ≤ 1 then 1 else side
      split
      · decide
      · next hmore => exact UInt32.lt_trans (by decide) (UInt32.not_le.mp hmore)
    obtain ⟨across, hacross, hleast⟩ := Single.exists_view_ofUInt32 (max display.width 1)
    obtain ⟨down, hdown, hleast'⟩ := Single.exists_view_ofUInt32 (max display.height 1)
    exact ⟨Single.isFinite_div hx hacross (hleast (hpos _)),
      Single.isFinite_div hy hdown (hleast' (hpos _)),
      Single.isFinite_div hwidth hacross (hleast (hpos _)),
      Single.isFinite_div hheight hdown (hleast' (hpos _))⟩

/-! ## The whole text -/

namespace Preset

variable {p : Preset}

/-- The fields of a preset as they are written. -/
def fields (p : Preset) : List (List Char) :=
  [p.mode.name.toList, p.target.toList, p.unit.symbol.toList, (Single.plain p.region.x).toList,
    (Single.plain p.region.y).toList, (Single.plain p.region.width).toList,
    (Single.plain p.region.height).toList]

theorem toList_toText (p : Preset) : p.toText.toList = [';'].intercalate p.fields := by
  rw [toText, String.toList_intercalate]
  rfl

/-- A preset begins with the name of its mode and ends with a number, and so nothing is trimmed of
its text. -/
theorem trim_toText (h : p.region.Finite) : Text.trim p.toText.toList = p.toText.toList := by
  have hname : p.mode.name.toList ≠ [] := by cases p.mode <;> decide
  obtain ⟨middle, htext⟩ : ∃ middle, p.toText.toList =
      p.mode.name.toList ++ middle ++ (Single.plain p.region.height).toList := by
    rw [toList_toText, fields]
    exact ⟨';' :: (p.target.toList ++ ';' :: (p.unit.symbol.toList ++ ';' ::
      ((Single.plain p.region.x).toList ++ ';' :: ((Single.plain p.region.y).toList ++ ';' ::
        ((Single.plain p.region.width).toList ++ [';']))))), by simp [List.intercalate]⟩
  rw [htext]
  exact Text.trim_eq_self_of_ends hname (Single.plain_ne_nil h.height)
    (fun _ hc => FollowMode.isBlank_of_mem_name hc)
    fun _ hc => Single.isBlank_of_mem_plain h.height hc

/-- The text falls apart into the fields, and the target may fall apart itself. -/
theorem pieces_toText (h : p.region.Finite) :
    Text.pieces (· == ';') (Text.trim p.toText.toList) =
      p.mode.name.toList :: (Text.pieces (· == ';') p.target.toList ++
        [p.unit.symbol.toList, (Single.plain p.region.x).toList,
          (Single.plain p.region.y).toList, (Single.plain p.region.width).toList,
          (Single.plain p.region.height).toList]) := by
  have hname : ';' ∉ p.mode.name.toList := by cases p.mode <;> decide
  have hsymbol : ';' ∉ p.unit.symbol.toList := by cases p.unit <;> decide
  have hne : p.fields ≠ [] := List.cons_ne_nil _ _
  rw [trim_toText h, toList_toText, Text.pieces_intercalate rfl hne, fields]
  simp [List.flatMap_cons, Text.pieces_of_not_mem hname, Text.pieces_of_not_mem hsymbol,
    Text.pieces_of_not_mem (Single.semicolon_not_mem_plain h.x),
    Text.pieces_of_not_mem (Single.semicolon_not_mem_plain h.y),
    Text.pieces_of_not_mem (Single.semicolon_not_mem_plain h.width),
    Text.pieces_of_not_mem (Single.semicolon_not_mem_plain h.height)]

/-- A preset whose target has no semicolon is read again, without the blank characters around its
target. -/
theorem ofText_toText (h : p.region.Finite) (hplain : ';' ∉ p.target.toList) :
    ofText p.toText = .ok { p with target := Text.trimmed p.target } := by
  have hpieces := pieces_toText h
  rw [Text.pieces_of_not_mem hplain, List.singleton_append] at hpieces
  unfold ofText
  dsimp only
  rw [hpieces]
  dsimp only
  rw [FollowMode.ofChars?_name, PlacementUnit.ofText_symbol, number_plain h.x, number_plain h.y,
    number_plain h.width, number_plain h.height]
  rfl

/-- A target with semicolons makes for as many fields too many. -/
theorem ofText_toText_of_mem (h : p.region.Finite) (hmem : ';' ∈ p.target.toList) :
    ofText p.toText = .error (.fieldCount (7 + p.target.toList.count ';')) := by
  have hpieces := pieces_toText h
  have hlength : (Text.pieces (· == ';') p.target.toList).length =
      p.target.toList.count ';' + 1 := Text.length_pieces _
  have hcount : 0 < p.target.toList.count ';' := List.count_pos_iff.mpr hmem
  generalize Text.pieces (· == ';') p.target.toList = parts at hpieces hlength
  unfold ofText
  dsimp only
  rw [hpieces]
  split
  · next hseven =>
    have hfields := congrArg List.length hseven
    simp only [List.length_cons, List.length_append, List.length_nil, hlength] at hfields
    omega
  · have hfound : parts.length + 5 + 1 = 7 + p.target.toList.count ';' := by omega
    rw [List.length_cons, List.length_append]
    exact congrArg (fun found => Except.error (PresetError.fieldCount found)) hfound

end Preset

end Skycam
