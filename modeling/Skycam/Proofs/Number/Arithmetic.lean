import Skycam.Proofs.Number.Size

/-!
# Arithmetic of sizes

The machine adds, multiplies and divides amounts to the nearest amount (`add_eq`, `mul_eq`,
`div_eq_ofRat`), so each operation keeps the order of what it is given.
-/

namespace Skycam.Single

open Float.Model (Format UnpackedFloat totalExponent)
open Float.Model.UnpackedFloat (Sign Accuracy accuracyOfFraction roundWithAccuracy decreaseExponent)

variable {x y : Float32} {a b : Binary} {q r : ℚ}

/-! ## Rounding of exact mantissas -/

/-- The exponent that the machine rounds an exact mantissa to. -/
theorem targetExponent_of_value {m num den : ℕ} {e : ℤ} (hm : 0 < m) (hnum : 0 < num)
    (hden : 0 < den) (hvalue : (num / den : ℚ) = m * 2 ^ e) :
    Format.binary32.targetExponent (totalExponent m e) =
      (BinaryFormat.single.nearest num den).exponent := by
  have hlog := log_mul_zpow one_lt_two (r := m) (by exact_mod_cast hm) e
  rw [Int.log_natCast, Nat.cast_ofNat, ← hvalue] at hlog
  rw [BinaryFormat.nearest_exponent hnum hden, hlog, targetExponent_eq, totalExponent,
    Nat.log2_eq_log_two]
  show max (_ + 1 + e - 24) (-149) = max (_ + e + 1 - 24) (-149)
  omega

/-- The bits of a value that is rounded from an exact mantissa are those of the nearest number. -/
theorem toNat_pack_roundExact (s : Sign) {m num den : ℕ} {e : ℤ} (hm : 0 < m) (hnum : 0 < num)
    (hden : 0 < den) (hvalue : (num / den : ℚ) = m * 2 ^ e)
    (hle : e ≤ (BinaryFormat.single.nearest num den).exponent) :
    (pack (roundWithAccuracy Format.binary32 s m e .exact)).toNat =
      s.toBitVec.toNat * signWeight + sizeBits (BinaryFormat.single.nearest num den) := by
  have hexact : accuracyOfFraction (m % 1) 1 = .exact := by rw [Nat.mod_one]; rfl
  have htarget := targetExponent_of_value hm hnum hden hvalue
  rw [← Nat.div_one m] at htarget
  have hround := toNat_pack_round s one_pos hnum hden (by simpa using hvalue) htarget hle
  rwa [hexact, Nat.div_one] at hround

/-- The machine may write zeros behind a mantissa before it rounds. -/
theorem toNat_pack_roundPadded (s : Sign) {m num den : ℕ} {e : ℤ} (hm : 0 < m) (hnum : 0 < num)
    (hden : 0 < den) (hvalue : (num / den : ℚ) = m * 2 ^ e) :
    (pack (UnpackedFloat.round Format.binary32 s m e)).toNat =
      s.toBitVec.toNat * signWeight + sizeBits (BinaryFormat.single.nearest num den) := by
  have htarget := targetExponent_of_value hm hnum hden hvalue
  unfold UnpackedFloat.round decreaseExponent
  dsimp only
  rw [htarget, Nat.shiftLeft_eq]
  refine toNat_pack_roundExact s (by positivity) hnum hden ?_ (by omega)
  rw [hvalue, zpow_sub₀ two_ne_zero, zpow_natCast]
  push_cast
  field_simp

/-! ## Sums -/

theorem toBits_add (x y : Float32) :
    (x + y).toBits.toNat =
      (pack (.add Format.binary32 (view x).toUnpacked (view y).toUnpacked)).toNat := by
  rw [← unpack_eq, ← unpack_eq]
  rfl

theorem toNat_pack_view (hx : IsSize x) : (pack (view x).toUnpacked).toNat = x.toBits.toNat := by
  have hnumber : IsNumber (toWord x).toNat := (Nat.mod_le _ _).trans hx
  rw [← unpack_eq, pack_unpack_of_isNumber hnumber, toNat_toWord]

theorem toRat_pos (h : view x = .finite false b) (hpos : 0 < b.mantissa) : 0 < toRat x := by
  rw [toRat_of_view h, Binary.toRat]
  positivity

theorem normalize_natCast {m : ℕ} (hm : 0 < m) (e : ℤ) (s : Sign) :
    UnpackedFloat.normalize Format.binary32 m e s =
      UnpackedFloat.round Format.binary32 .positive m e := by
  have hpos : (0 : ℤ) < m := by exact_mod_cast hm
  rw [UnpackedFloat.normalize, compare_gt_iff_gt.mpr hpos, Int.toNat_natCast]

theorem positive_weight (n : ℕ) : Sign.positive.toBitVec.toNat * signWeight + n = n := by
  rw [show Sign.positive.toBitVec.toNat = 0 from rfl, Nat.zero_mul, Nat.zero_add]

/-- The sum of two positive numbers is their exact sum, rounded once. -/
theorem add_of_pos (ha : 0 < a.mantissa) (hb : 0 < b.mantissa) (hx : view x = .finite false a)
    (hy : view y = .finite false b) : x + y = ofRat (toRat x + toRat y) := by
  obtain ⟨num, den, hnum, hden, hvalue⟩ :=
    exists_eq_div (add_pos (toRat_pos hx ha) (toRat_pos hy hb))
  apply eq_of_toBits
  rw [hvalue, ofRat_div hnum hden, toBits_ofBinary, toBits_add, hx, hy, toUnpacked_of_pos ha,
    toUnpacked_of_pos hb]
  rw [toRat_of_view hx, toRat_of_view hy, Binary.toRat, Binary.toRat] at hvalue
  -- both mantissas are written with the smaller exponent
  obtain ⟨k, hk⟩ : ∃ k : ℕ, a.exponent - min a.exponent b.exponent = k :=
    ⟨(a.exponent - min a.exponent b.exponent).toNat, by omega⟩
  obtain ⟨l, hl⟩ : ∃ l : ℕ, b.exponent - min a.exponent b.exponent = l :=
    ⟨(b.exponent - min a.exponent b.exponent).toNat, by omega⟩
  have hsum : (num / den : ℚ) =
      (a.mantissa * 2 ^ k + b.mantissa * 2 ^ l : ℕ) * 2 ^ min a.exponent b.exponent := by
    have hka : a.exponent = k + min a.exponent b.exponent := by omega
    have hlb : b.exponent = l + min a.exponent b.exponent := by omega
    generalize min a.exponent b.exponent = e at *
    rw [← hvalue, hka, hlb, zpow_add₀ two_ne_zero, zpow_add₀ two_ne_zero, zpow_natCast,
      zpow_natCast]
    push_cast
    ring
  have hadd : UnpackedFloat.add Format.binary32 (.finite .positive a.mantissa a.exponent ha)
      (.finite .positive b.mantissa b.exponent hb) =
        UnpackedFloat.round Format.binary32 .positive (a.mantissa * 2 ^ k + b.mantissa * 2 ^ l)
          (min a.exponent b.exponent) := by
    rw [← normalize_natCast (by positivity) _ .positive, ← Nat.shiftLeft_eq, ← Nat.shiftLeft_eq,
      UnpackedFloat.add, decreaseExponent, decreaseExponent, hk, hl, Int.toNat_natCast,
      Int.toNat_natCast, Nat.cast_add]
    rfl
  rw [hadd, toNat_pack_roundPadded .positive (by positivity) hnum hden hsum, positive_weight]

/-- The machine adds amounts to the amount nearest to their sum. -/
theorem add_eq (hx : IsAmount x) (hy : IsAmount y) : x + y = ofRat (toRat x + toRat y) := by
  rcases hx.eq_zero_or_exists_view with ⟨-, hviewx⟩ | ⟨a, ha, hviewx⟩
  · have hbits : (x + y).toBits.toNat = y.toBits.toNat := by
      rw [toBits_add, hviewx, ← toNat_pack_view hy.isSize]
      rcases hy.toUnpacked with h | ⟨m, e, hm, h⟩ <;> rw [h] <;> rfl
    rw [toRat_of_zero hviewx, zero_add, ofRat_toRat hy]
    exact eq_of_toBits hbits
  · rcases hy.eq_zero_or_exists_view with ⟨-, hviewy⟩ | ⟨b, hb, hviewy⟩
    · have hbits : (x + y).toBits.toNat = x.toBits.toNat := by
        rw [toBits_add, hviewy, ← toNat_pack_view hx.isSize, hviewx, toUnpacked_of_pos ha]
        rfl
      rw [toRat_of_zero hviewy, add_zero, ofRat_toRat hx]
      exact eq_of_toBits hbits
    · exact add_of_pos ha hb hviewx hviewy

/-! ## Products -/

theorem toBits_mul (x y : Float32) :
    (x * y).toBits.toNat =
      (pack (.mul Format.binary32 (view x).toUnpacked (view y).toUnpacked)).toNat := by
  rw [← unpack_eq, ← unpack_eq]
  rfl

/-- The product of two mantissas has all bits that rounding keeps. -/
theorem add_exponents_le (ha : 0 < a.mantissa) (hb : 0 < b.mantissa) (hfits : Fits a)
    (hfits' : Fits b) : a.exponent + b.exponent ≤
      Format.binary32.targetExponent
        (totalExponent (a.mantissa * b.mantissa) (a.exponent + b.exponent)) := by
  have hfull : a.exponent = -149 ∨ 2 ^ 23 ≤ a.mantissa := hfits.full
  have hfull' : b.exponent = -149 ∨ 2 ^ 23 ≤ b.mantissa := hfits'.full
  rw [targetExponent_eq, totalExponent]
  by_cases hlong : 2 ^ 23 ≤ a.mantissa * b.mantissa
  · have hlog := (Nat.le_log2 (Nat.mul_pos ha hb).ne').mpr hlong
    omega
  · have hshort : a.mantissa < 2 ^ 23 :=
      lt_of_le_of_lt (Nat.le_mul_of_pos_right _ hb) (not_le.mp hlong)
    have hshort' : b.mantissa < 2 ^ 23 :=
      lt_of_le_of_lt (Nat.le_mul_of_pos_left _ ha) (not_le.mp hlong)
    omega

/-- A product is negative if just one of its factors is. -/
theorem signOf_mul (s t : Bool) : signOf s * signOf t = signOf (s != t) := by
  cases s with
  | false =>
    cases t with
    | false => rfl
    | true => rfl
  | true =>
    cases t with
    | false => rfl
    | true => rfl

variable {s t : Bool}

/-- The product of two numbers that are not zero is the exact product of their sizes, rounded once,
with the sign of the product. -/
theorem mul_of_pos (ha : 0 < a.mantissa) (hb : 0 < b.mantissa) (hx : view x = .finite s a)
    (hy : view y = .finite t b) : x * y = signed (s != t) (ofRat (a.toRat * b.toRat)) := by
  have hpos : 0 < a.toRat * b.toRat := by
    rw [Binary.toRat, Binary.toRat]
    positivity
  obtain ⟨num, den, hnum, hden, hvalue⟩ := exists_eq_div hpos
  have hm : 0 < a.mantissa * b.mantissa := Nat.mul_pos ha hb
  have hproduct : (num / den : ℚ) =
      (a.mantissa * b.mantissa : ℕ) * 2 ^ (a.exponent + b.exponent) := by
    rw [← hvalue, Binary.toRat, Binary.toRat, zpow_add₀ two_ne_zero]
    push_cast
    ring
  have hle := add_exponents_le ha hb (fits_of_view hx) (fits_of_view hy)
  rw [targetExponent_of_value hm hnum hden hproduct] at hle
  apply eq_of_toBits
  rw [hvalue, ofRat_div hnum hden, toBits_mul, hx, hy, toBits_signed, ← toNat_signOf,
    ← signOf_mul]
  simp only [View.toUnpacked, ha, hb, dif_pos]
  exact toNat_pack_roundExact (signOf s * signOf t) hm hnum hden hproduct hle

/-- The product of two finite numbers is the number nearest to their exact product. -/
theorem mul_of_view (hx : view x = .finite s a) (hy : view y = .finite t b) :
    x * y = signed (s != t) (ofRat (a.toRat * b.toRat)) := by
  by_cases hpos : 0 < a.mantissa ∧ 0 < b.mantissa
  · exact mul_of_pos hpos.1 hpos.2 hx hy
  · have hzero : a.mantissa = 0 ∨ b.mantissa = 0 := by omega
    have hvalue : a.toRat * b.toRat = 0 := by
      rcases hzero with h | h
      · rw [Binary.toRat, h, Nat.cast_zero, zero_mul, zero_mul]
      · rw [Binary.toRat, Binary.toRat, h, Nat.cast_zero, zero_mul, mul_zero]
    have hnone : sizeBits ⟨0, -149⟩ = 0 := by simp [sizeBits]
    have hmul : UnpackedFloat.mul Format.binary32 (View.finite s a).toUnpacked
        (View.finite t b).toUnpacked = .zero (signOf s * signOf t) := by
      rcases hzero with h | h
      · rw [View.toUnpacked, dif_neg h.not_gt]
        unfold View.toUnpacked
        dsimp only
        split <;> rfl
      · rw [View.toUnpacked, View.toUnpacked, dif_neg h.not_gt]
        split <;> rfl
    apply eq_of_toBits
    rw [hvalue, ofRat_of_nonpos le_rfl, toBits_mul, hx, hy, hmul, toBits_signed, ← toNat_signOf,
      ← signOf_mul, hnone, add_zero]
    exact toNat_pack_zero (signOf s * signOf t)

/-- The machine multiplies amounts to the amount nearest to their product. -/
theorem mul_eq (hx : IsAmount x) (hy : IsAmount y) : x * y = ofRat (toRat x * toRat y) := by
  obtain ⟨a, hviewx⟩ := hx.exists_view
  obtain ⟨b, hviewy⟩ := hy.exists_view
  rw [toRat_of_view hviewx, toRat_of_view hviewy]
  exact mul_of_view hviewx hviewy

/-! ## Quotients -/

/-- The quotient of two finite numbers is the number nearest to their exact quotient. -/
theorem div_of_view (hx : view x = .finite s a) (hy : view y = .finite t b)
    (hb : 0 < b.mantissa) : x / y = signed (s != t) (ofRat (a.toRat / b.toRat)) := by
  rcases Nat.eq_zero_or_pos a.mantissa with ha | ha
  · have hzero : a.toRat / b.toRat = 0 := by
      rw [Binary.toRat, ha, Nat.cast_zero, zero_mul, zero_div]
    rw [zero_div_eq hx hy ha hb, hzero, ofRat_of_nonpos le_rfl]
  · rw [div_eq hx hy ha hb, ← Binary.div_toRat,
      ofRat_div (Nat.mul_pos (Binary.num_pos ha) b.den_pos)
        (Nat.mul_pos a.den_pos (Binary.num_pos hb))]
    rfl

/-- The machine divides amounts to the amount nearest to their quotient. -/
theorem div_eq_ofRat (hx : IsAmount x) (hy : IsAmount y) (hpos : 0 < toRat y) :
    x / y = ofRat (toRat x / toRat y) := by
  obtain ⟨a, hviewx⟩ := hx.exists_view
  rcases hy.eq_zero_or_exists_view with ⟨-, hviewy⟩ | ⟨b, hb, hviewy⟩
  · rw [toRat_of_zero hviewy] at hpos
    exact absurd hpos (lt_irrefl 0)
  · rw [toRat_of_view hviewx, toRat_of_view hviewy]
    exact div_of_view hviewx hviewy hb

/-! ## Infinite sizes -/

theorem toNat_pack_infinity : (pack (.infinity .positive)).toNat = infinityBits := by
  rw [← toUnpacked_infinity, toNat_pack_view isSize_infinity, toBits_infinity]

theorem infinity_add (hy : IsSize y) : infinity + y = infinity := by
  apply eq_of_toBits
  rw [toBits_infinity, ← toNat_pack_infinity, toBits_add, toUnpacked_infinity]
  rcases hy.toUnpacked with h | h | ⟨m, e, hm, h⟩ <;> rw [h] <;> rfl

theorem add_infinity (hx : IsSize x) : x + infinity = infinity := by
  apply eq_of_toBits
  rw [toBits_infinity, ← toNat_pack_infinity, toBits_add, toUnpacked_infinity]
  rcases hx.toUnpacked with h | h | ⟨m, e, hm, h⟩ <;> rw [h] <;> rfl

/-- A positive amount of infinity is infinity. -/
theorem mul_infinity (hx : IsAmount x) (hpos : 0 < x.toBits.toNat) : x * infinity = infinity := by
  apply eq_of_toBits
  rw [toBits_infinity, ← toNat_pack_infinity, toBits_mul, toUnpacked_infinity]
  rcases hx.eq_zero_or_exists_view with ⟨hzero, -⟩ | ⟨b, hb, hview⟩
  · omega
  · rw [hview, toUnpacked_of_pos hb]
    rfl

theorem div_infinity (hx : IsAmount x) : (x / infinity).toBits.toNat = 0 := by
  have hpack : (pack (.zero .positive)).toNat = 0 := toNat_pack_zero .positive
  rw [← hpack, toBits_div, toUnpacked_infinity]
  rcases hx.toUnpacked with h | ⟨m, e, hm, h⟩ <;> rw [h] <;> rfl

/-- Infinity divided by a positive amount is infinity. -/
theorem infinity_div (hy : IsAmount y) (hpos : 0 < y.toBits.toNat) : infinity / y = infinity := by
  apply eq_of_toBits
  rw [toBits_infinity, ← toNat_pack_infinity, toBits_div, toUnpacked_infinity]
  rcases hy.eq_zero_or_exists_view with ⟨hzero, -⟩ | ⟨b, hb, hview⟩
  · omega
  · rw [hview, toUnpacked_of_pos hb]
    rfl

/-! ## The order of results -/

variable {x' y' : Float32}

/-- Sizes add up to a size. -/
theorem add_isSize (hx : IsSize x) (hy : IsSize y) : IsSize (x + y) := by
  rcases hx.eq_infinity_or_isAmount with rfl | hxamount
  · rw [infinity_add hy]
    exact isSize_infinity
  · rcases hy.eq_infinity_or_isAmount with rfl | hyamount
    · rw [add_infinity hx]
      exact isSize_infinity
    · rw [add_eq hxamount hyamount]
      exact ofRat_isSize _

/-- What is at most the value of an amount is rounded to at most that amount. -/
theorem isAmount_ofRat (hy : IsAmount y) (h : q ≤ toRat y) :
    IsAmount (ofRat q) ∧ toRat (ofRat q) ≤ toRat y := by
  have hmono := toBits_ofRat_mono h
  rw [ofRat_toRat hy] at hmono
  have hamount : IsAmount (ofRat q) := hmono.trans_lt hy
  exact ⟨hamount, (hamount.toRat_le_iff hy).mpr hmono⟩

theorem le_add (hx : IsSize x) (hy : IsAmount y) : x.toBits.toNat ≤ (x + y).toBits.toNat := by
  rcases hx.eq_infinity_or_isAmount with rfl | hamount
  · rw [infinity_add hy.isSize]
  · have hmono := toBits_ofRat_mono (le_add_of_nonneg_right (a := toRat x) (toRat_nonneg hy))
    rwa [ofRat_toRat hamount, ← add_eq hamount hy] at hmono

/-- Larger sizes have a larger sum. -/
theorem add_mono (hx : IsSize x) (hy : IsSize y) (hx' : IsSize x') (hy' : IsSize y')
    (hxle : x.toBits.toNat ≤ x'.toBits.toNat) (hyle : y.toBits.toNat ≤ y'.toBits.toNat) :
    (x + y).toBits.toNat ≤ (x' + y').toBits.toNat := by
  rcases hx'.eq_infinity_or_isAmount with rfl | hxamount'
  · rw [infinity_add hy', toBits_infinity]
    exact add_isSize hx hy
  · rcases hy'.eq_infinity_or_isAmount with rfl | hyamount'
    · rw [add_infinity hx', toBits_infinity]
      exact add_isSize hx hy
    · have hxamount : IsAmount x := hxle.trans_lt hxamount'
      have hyamount : IsAmount y := hyle.trans_lt hyamount'
      rw [add_eq hxamount hyamount, add_eq hxamount' hyamount']
      exact toBits_ofRat_mono (add_le_add ((hxamount.toRat_le_iff hxamount').mpr hxle)
        ((hyamount.toRat_le_iff hyamount').mpr hyle))

/-- The product of sizes is a size, unless nothing is multiplied by infinity. -/
theorem mul_isSize (hx : IsAmount x) (hy : IsSize y) (h : x.toBits.toNat = 0 → IsAmount y) :
    IsSize (x * y) := by
  rcases hy.eq_infinity_or_isAmount with rfl | hyamount
  · have hpos : x.toBits.toNat ≠ 0 := fun hzero => absurd toBits_infinity (h hzero).ne
    rw [mul_infinity hx (Nat.pos_of_ne_zero hpos)]
    exact isSize_infinity
  · rw [mul_eq hx hyamount]
    exact ofRat_isSize _

/-- Larger sizes have a larger product, if neither is zero times infinity. -/
theorem mul_mono (hx : IsAmount x) (hy : IsSize y) (hx' : IsAmount x') (hy' : IsSize y')
    (hxle : x.toBits.toNat ≤ x'.toBits.toNat) (hyle : y.toBits.toNat ≤ y'.toBits.toNat)
    (h : x.toBits.toNat = 0 → IsAmount y) (h' : x'.toBits.toNat = 0 → IsAmount y') :
    (x * y).toBits.toNat ≤ (x' * y').toBits.toNat := by
  rcases hy'.eq_infinity_or_isAmount with rfl | hyamount'
  · have hpos : x'.toBits.toNat ≠ 0 := fun hzero => absurd toBits_infinity (h' hzero).ne
    rw [mul_infinity hx' (Nat.pos_of_ne_zero hpos), toBits_infinity]
    exact mul_isSize hx hy h
  · have hyamount : IsAmount y := hyle.trans_lt hyamount'
    rw [mul_eq hx hyamount, mul_eq hx' hyamount']
    exact toBits_ofRat_mono (mul_le_mul ((hx.toRat_le_iff hx').mpr hxle)
      ((hyamount.toRat_le_iff hyamount').mpr hyle) (toRat_nonneg hyamount) (toRat_nonneg hx'))

theorem toRat_pos_iff (hx : IsAmount x) : 0 < toRat x ↔ 0 < x.toBits.toNat := by
  rcases hx.eq_zero_or_exists_view with ⟨hzero, hview⟩ | ⟨b, hpos, hview⟩
  · rw [toRat_of_zero hview, hzero]
    exact iff_of_false (lt_irrefl 0) (lt_irrefl 0)
  · exact iff_of_true (toRat_pos hview hpos) (toBits_pos hview hpos)

theorem toRat_eq_zero (h : x.toBits.toNat = 0) : toRat x = 0 := by
  have hamount : IsAmount x := h.trans_lt (by decide)
  have hpos := mt (toRat_pos_iff hamount).mp h.not_gt
  exact le_antisymm (not_lt.mp hpos) (toRat_nonneg hamount)

/-- Nothing divided by a positive size is nothing. -/
theorem toBits_zero_div (hx : x.toBits.toNat = 0) (hy : IsSize y) (hpos : 0 < y.toBits.toNat) :
    (x / y).toBits.toNat = 0 := by
  have hamount : IsAmount x := hx.trans_lt (by decide)
  rcases hy.eq_infinity_or_isAmount with rfl | hyamount
  · exact div_infinity hamount
  · rw [div_eq_ofRat hamount hyamount ((toRat_pos_iff hyamount).mpr hpos), toRat_eq_zero hx,
      zero_div, ofRat_of_nonpos le_rfl, toBits_zero]

theorem div_isSize (hx : IsAmount x) (hy : IsSize y) (hpos : 0 < y.toBits.toNat) :
    IsSize (x / y) := by
  rcases hy.eq_infinity_or_isAmount with rfl | hyamount
  · exact (div_infinity hx).le.trans (Nat.zero_le _)
  · rw [div_eq_ofRat hx hyamount ((toRat_pos_iff hyamount).mpr hpos)]
    exact ofRat_isSize _

/-- A larger amount has a larger quotient. -/
theorem div_mono (hx : IsAmount x) (hx' : IsAmount x') (hy : IsSize y)
    (hle : x.toBits.toNat ≤ x'.toBits.toNat) (hpos : 0 < y.toBits.toNat) :
    (x / y).toBits.toNat ≤ (x' / y).toBits.toNat := by
  rcases hy.eq_infinity_or_isAmount with rfl | hyamount
  · rw [div_infinity hx]
    exact Nat.zero_le _
  · have hpos' := (toRat_pos_iff hyamount).mpr hpos
    have hle' := (hx.toRat_le_iff hx').mpr hle
    rw [div_eq_ofRat hx hyamount hpos', div_eq_ofRat hx' hyamount hpos']
    exact toBits_ofRat_mono (div_le_div_of_nonneg_right hle' hpos'.le)

/-! ## Zero and one -/

theorem bits_zero : (0.0 : Float32).toBits.toNat = 0 := by decide

theorem zero_isAmount : IsAmount (0.0 : Float32) := bits_zero.trans_lt (by decide)

theorem zero_isSize : IsSize (0.0 : Float32) := zero_isAmount.isSize

theorem one_isAmount : IsAmount (1.0 : Float32) := isAmount_of_view view_one

theorem toRat_one : toRat (1.0 : Float32) = 1 := by
  rw [toRat_of_view view_one, Binary.toRat]
  norm_num

theorem div_self_eq_one (hx : IsAmount x) (hpos : 0 < x.toBits.toNat) : x / x = 1.0 := by
  have hvalue := (toRat_pos_iff hx).mpr hpos
  rw [div_eq_ofRat hx hx hvalue, div_self hvalue.ne', ← toRat_one, ofRat_toRat one_isAmount]

/-- The larger of anything and a size is a size. -/
theorem max_isSize (hy : IsSize y) :
    IsSize (Scalar.max x y) ∧ y.toBits.toNat ≤ (Scalar.max x y).toBits.toNat := by
  unfold Scalar.max
  split
  · exact ⟨hy, le_rfl⟩
  · next hnumber =>
    split
    · exact ⟨hy, le_rfl⟩
    · next hmore =>
      obtain ⟨hsize, hlt⟩ := isSize_of_not_le (Bool.eq_false_iff.mpr hnumber) hy hmore
      exact ⟨hsize, hlt.le⟩

/-! ## Finite sizes -/

theorem isFinite_eq_true (h : IsAmount x) : x.isFinite = true := by
  obtain ⟨b, hview⟩ := h.exists_view
  exact isFinite_iff.mpr ⟨_, b, hview⟩

theorem not_isFinite_infinity : ¬infinity.isFinite = true := by decide

theorem IsSize.isAmount (h : IsSize x) (hfinite : x.isFinite = true) : IsAmount x := by
  rcases h.eq_infinity_or_isAmount with rfl | hamount
  · exact absurd hfinite not_isFinite_infinity
  · exact hamount

theorem IsAmount.nonneg (h : IsAmount x) : 0.0 ≤ x := by
  rw [zero_isSize.le_iff h.isSize, bits_zero]
  exact Nat.zero_le _

/-- A finite number that is positive is an amount. -/
theorem isAmount_of_pos (hfinite : x.isFinite = true) (hpos : 0.0 < x) :
    IsAmount x ∧ 0 < x.toBits.toNat := by
  obtain ⟨hsize, hbits⟩ := isSize_of_lt zero_isSize hpos
  rw [bits_zero] at hbits
  exact ⟨hsize.isAmount hfinite, hbits⟩

/-- What is finite and not at most zero is positive. -/
theorem pos_of_not_le (hfinite : x.isFinite = true) (h : ¬x ≤ 0.0) : 0.0 < x := by
  obtain ⟨s, b, hview⟩ := isFinite_iff.mp hfinite
  have hnumber : x.isNaN = false := by
    rw [Bool.eq_false_iff, ne_eq, isNaN_iff, hview]
    exact View.noConfusion
  obtain ⟨hsize, hbits⟩ := isSize_of_not_le hnumber zero_isSize h
  exact (zero_isSize.lt_iff hsize).mpr hbits

/-- The larger of a finite number and zero is an amount. -/
theorem max_zero_isAmount (h : x.isFinite = true) : IsAmount (Scalar.max x 0.0) := by
  refine (max_isSize zero_isSize).1.isAmount ?_
  unfold Scalar.max
  split
  · exact isFinite_eq_true zero_isAmount
  · split
    · exact isFinite_eq_true zero_isAmount
    · exact h

/-! ## Parts of a whole -/

theorem size_div_isSize (hx : IsSize x) (hy : IsAmount y) (hpos : 0 < y.toBits.toNat) :
    IsSize (x / y) := by
  rcases hx.eq_infinity_or_isAmount with rfl | hamount
  · rw [infinity_div hy hpos]
    exact isSize_infinity
  · exact div_isSize hamount hy.isSize hpos

/-- What is not less than the whole is not less than one part of one. -/
theorem one_le_div (hx : IsSize x) (hy : IsAmount y) (hpos : 0 < y.toBits.toNat) (hle : y ≤ x) :
    1.0 ≤ x / y := by
  rw [one_isAmount.isSize.le_iff (size_div_isSize hx hy hpos)]
  rcases hx.eq_infinity_or_isAmount with rfl | hamount
  · rw [infinity_div hy hpos, toBits_infinity]
    exact one_isAmount.isSize
  · have hmono := div_mono hy hamount hy.isSize ((hy.isSize.le_iff hx).mp hle) hpos
    rwa [div_self_eq_one hy hpos] at hmono

/-- A size that is cut at one is a number from 0 to 1. -/
theorem clampUnit_mem (hx : IsSize x) :
    0.0 ≤ Scalar.clampUnit x ∧ Scalar.clampUnit x ≤ 1.0 ∧
      (1.0 ≤ x → 1.0 ≤ Scalar.clampUnit x) := by
  have hone : (1.0 : Float32) ≤ 1.0 := (one_isAmount.isSize.le_iff one_isAmount.isSize).mpr le_rfl
  have hnonneg : ¬x < 0.0 := by
    rw [hx.lt_iff zero_isSize, bits_zero]
    exact Nat.not_lt_zero _
  unfold Scalar.clampUnit
  rw [if_neg hnonneg]
  split
  · exact ⟨one_isAmount.nonneg, hone, fun _ => hone⟩
  · next hless =>
    have hlt : x.toBits.toNat < (1.0 : Float32).toBits.toNat := by
      rwa [one_isAmount.isSize.le_iff hx, not_le] at hless
    refine ⟨?_, (hx.le_iff one_isAmount.isSize).mpr hlt.le, fun hmore => absurd hmore hless⟩
    rw [zero_isSize.le_iff hx, bits_zero]
    exact Nat.zero_le _

/-! ## Integers -/

theorem ofNat_eq (n : ℕ) : ofNat n = ofRat n := by
  rcases Nat.eq_zero_or_pos n with rfl | hpos
  · rw [ofNat, if_pos rfl, Nat.cast_zero, ofRat_of_nonpos le_rfl]
  · have hvalue : (n : ℚ) = n / (1 : ℕ) := by rw [Nat.cast_one, div_one]
    rw [ofNat, if_neg hpos.ne', hvalue, ofRat_div hpos one_pos]

/-- A counter turns into an amount. -/
theorem ofNat_isAmount {n : ℕ} (h : n < 2 ^ 32) :
    IsAmount (ofNat n) ∧ toRat (ofNat n) ≤ 2 ^ 32 := by
  have hlarge : view (4294967296.0 : Float32) = .finite false ⟨2 ^ 23, 9⟩ := by decide
  have hvalue : toRat (4294967296.0 : Float32) = 2 ^ 32 := by
    rw [toRat_of_view hlarge, Binary.toRat]
    norm_num
  have hn : (n : ℚ) ≤ 2 ^ 32 := by exact_mod_cast h.le
  rw [ofNat_eq, ← hvalue]
  exact isAmount_ofRat (isAmount_of_view hlarge) (hvalue ▸ hn)

/-- The integer part of a size, cut to the range of unsigned words. -/
def cappedFloor (x : Float32) : ℕ :=
  if x.isFinite then min ⌊toRat x⌋₊ (UInt32.size - 1) else UInt32.size - 1

theorem toNat_clampUInt32 (n : ℕ) : (clampUInt32 n).toNat = min n (UInt32.size - 1) := by
  have hle : min n (UInt32.size - 1) < UInt32.size :=
    (min_le_right _ _).trans_lt (by decide)
  rw [clampUInt32, Int.toNat_natCast]
  exact Nat.mod_eq_of_lt hle

/-- A size turns into a counter by its whole part, cut to the largest counter. -/
theorem toNat_toUInt32 (h : IsSize x) : (toUInt32 x).toNat = cappedFloor x := by
  rcases h.eq_infinity_or_isAmount with rfl | hamount
  · rw [cappedFloor, if_neg not_isFinite_infinity]
    rfl
  · obtain ⟨b, hview⟩ := hamount.exists_view
    have hfloor : ⌊toRat x⌋₊ = b.num / b.den := by
      rw [toRat_of_view hview, ← b.num_div_den, Nat.floor_div_eq_div]
    rw [cappedFloor, if_pos (isFinite_eq_true hamount), hfloor, toUInt32, hview]
    exact toNat_clampUInt32 _

theorem cappedFloor_eq_zero (h : x.toBits.toNat = 0) : cappedFloor x = 0 := by
  rw [cappedFloor, if_pos (isFinite_eq_true (h.trans_lt (by decide))), toRat_eq_zero h,
    Nat.floor_zero, Nat.zero_min]

/-- A larger size does not turn into a smaller counter. -/
theorem cappedFloor_mono (hx' : IsSize x') (hle : x.toBits.toNat ≤ x'.toBits.toNat) :
    cappedFloor x ≤ cappedFloor x' := by
  rcases hx'.eq_infinity_or_isAmount with rfl | hamount'
  · rw [cappedFloor, cappedFloor, if_neg not_isFinite_infinity]
    split
    · exact min_le_right _ _
    · exact le_rfl
  · have hamount : IsAmount x := hle.trans_lt hamount'
    rw [cappedFloor, cappedFloor, if_pos (isFinite_eq_true hamount),
      if_pos (isFinite_eq_true hamount')]
    exact min_le_min_right _ (Nat.floor_le_floor ((hamount.toRat_le_iff hamount').mpr hle))

end Skycam.Single
