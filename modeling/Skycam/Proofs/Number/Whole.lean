import Skycam.Proofs.Number.Error

/-!
# Whole numbers that are scaled

An amount less than one half away from a whole number is rounded to it (`round_of_near`), and a
whole number of few bits comes back from its conversion (`toInt32_ofInt`, `toUInt32_ofNat`). A whole
number below `2^22` that is divided by a scale and multiplied by it again moves by less than one
half, whatever the scale is (`IsScale.div_mul_near`), so it is rounded to itself
(`IsScale.round_div_mul`).
-/

namespace Skycam.Single

variable {x y : Float32} {b : Binary} {n : ℕ}

/-! ## Signs -/

theorem view_signed (h : view x = .finite false b) (s : Bool) :
    view (signed s x) = .finite s b := by
  rw [← ofBinary_of_view h]
  exact view_signed_of_fits (fits_of_view h) s

theorem signed_mul (hx : IsAmount x) (hy : IsAmount y) (s : Bool) :
    signed s x * y = signed s (x * y) := by
  obtain ⟨a, hviewx⟩ := hx.exists_view
  obtain ⟨b, hviewy⟩ := hy.exists_view
  rw [mul_of_view (view_signed hviewx s) hviewy, mul_of_view hviewx hviewy, Bool.bne_false]
  rfl

/-- A sign can be taken out of a quotient. -/
theorem signed_div (hx : IsAmount x) (hy : IsAmount y) (hpos : 0 < toRat y) (s : Bool) :
    signed s x / y = signed s (x / y) := by
  obtain ⟨a, hviewx⟩ := hx.exists_view
  rcases hy.eq_zero_or_exists_view with ⟨-, hviewy⟩ | ⟨b, hb, hviewy⟩
  · rw [toRat_of_zero hviewy] at hpos
    exact absurd hpos (lt_irrefl 0)
  · rw [div_of_view (view_signed hviewx s) hviewy hb, div_of_view hviewx hviewy hb,
      Bool.bne_false]
    rfl

/-! ## Rounding to a whole number -/

/-- What is less than half away from a whole number is rounded to it. -/
theorem divHalfUp_of_near {num den : ℕ} (hden : 0 < den) (h : |(num / den : ℚ) - n| < 1 / 2) :
    divHalfUp num den = n := by
  have hden' : (0 : ℚ) < den := by exact_mod_cast hden
  obtain ⟨hlow, hhigh⟩ := abs_lt.mp h
  have hlow' : (n - 1 / 2) * den < (num : ℚ) := by
    rw [← lt_div_iff₀ hden']
    linarith
  have hhigh' : (num : ℚ) < (n + 1 / 2) * den := by
    rw [← div_lt_iff₀ hden']
    linarith
  have hle : n * (2 * den) ≤ 2 * num + den := by
    have hle' : (n * (2 * den) : ℚ) ≤ 2 * num + den := by linarith
    exact_mod_cast hle'
  have hlt : 2 * num + den < (n + 1) * (2 * den) := by
    have hlt' : (2 * num + den : ℚ) < (n + 1) * (2 * den) := by linarith
    exact_mod_cast hlt'
  exact Nat.div_eq_of_lt_le hle hlt

/-- An amount near a whole number is rounded to it. -/
theorem round_of_near (hx : IsAmount x) (h : |toRat x - n| < 1 / 2) (s : Bool) :
    round (signed s x) = signed s (ofNat n) := by
  obtain ⟨b, hview⟩ := hx.exists_view
  have hnear : |(b.num / b.den : ℚ) - n| < 1 / 2 := by rwa [b.num_div_den, ← toRat_of_view hview]
  have hhalf : divHalfUp b.num b.den = n := divHalfUp_of_near b.den_pos hnear
  rw [round, view_signed hview]
  dsimp only
  split
  · next hwhole =>
    -- without a fraction the amount is that whole number
    have hden : b.den = 1 := by
      rw [Binary.den, Int.toNat_of_nonpos (neg_nonpos.mpr hwhole), Nat.pow_eq, pow_zero]
    have hnum : b.num = n := by
      rw [hden, divHalfUp] at hhalf
      omega
    have hvalue : toRat x = n := by
      rw [toRat_of_view hview, ← b.num_div_den, hden, hnum, Nat.cast_one, div_one]
    rw [ofNat_eq, ← hvalue, ofRat_toRat hx]
  · rw [hhalf]

/-! ## Conversions -/

theorem toNat_toUInt32_ofNat (h : n < 2 ^ 24) : (toUInt32 (ofNat n)).toNat = n := by
  have hamount : IsAmount (ofNat n) := (ofNat_isAmount (by omega)).1
  rw [toNat_toUInt32 hamount.isSize, cappedFloor, if_pos (isFinite_eq_true hamount),
    toRat_ofNat h, Nat.floor_natCast]
  exact min_eq_left (by simp only [UInt32.size]; omega)

/-- A short whole number comes back from its number. -/
theorem toInt32_ofInt {k : ℤ} (h : k.natAbs < 2 ^ 24) : toInt32 (ofInt k) = Int32.ofInt k := by
  obtain ⟨b, hview⟩ := (ofNat_isAmount (n := k.natAbs) (by omega)).1.exists_view
  have hsize : b.num / b.den = k.natAbs := by
    have hvalue : (b.num / b.den : ℚ) = k.natAbs := by
      rw [b.num_div_den, ← toRat_of_view hview, toRat_ofNat h]
    rw [← Nat.floor_div_eq_div (K := ℚ), hvalue, Nat.floor_natCast]
  have hpart : integerPart (decide (k < 0)) b = k := by
    rw [integerPart, hsize]
    by_cases hneg : k < 0
    · rw [decide_eq_true hneg, if_pos rfl]
      omega
    · rw [decide_eq_false hneg, if_neg Bool.false_ne_true]
      omega
  rw [ofInt, toInt32, view_signed hview]
  dsimp only
  rw [hpart, clampInt32]
  congr 1
  have hmin : Int32.minValue.toInt = -2147483648 := rfl
  have hmax : Int32.maxValue.toInt = 2147483647 := rfl
  omega

/-- Whole numbers are in the order of what they are converted to. -/
theorem max_ofNat {m : ℕ} (hn : n < 2 ^ 32) (hm : m < 2 ^ 32) :
    Scalar.max (ofNat n) (ofNat m) = ofNat (max n m) := by
  have hsize := (ofNat_isAmount hn).1.isSize
  have hsize' := (ofNat_isAmount hm).1.isSize
  have hmono : ∀ k l : ℕ, k ≤ l → (ofNat k).toBits.toNat ≤ (ofNat l).toBits.toNat := by
    intro k l hkl
    rw [ofNat_eq, ofNat_eq]
    exact toBits_ofRat_mono (by exact_mod_cast hkl)
  have hnan : Scalar.isNaN (ofNat n) = false := hsize.isNaN_eq_false
  rw [Scalar.max, hnan, if_neg Bool.false_ne_true]
  split
  · next hle =>
    rcases le_total n m with hnm | hmn
    · rw [max_eq_right hnm]
    · have hbits := (hsize.le_iff hsize').mp hle
      rw [max_eq_left hmn]
      exact eq_of_toBits (le_antisymm (hmono m n hmn) hbits)
  · next hlt =>
    have hmn : m ≤ n := by
      by_contra hnm
      exact hlt ((hsize.le_iff hsize').mpr (hmono n m (not_le.mp hnm).le))
    rw [max_eq_left hmn]

/-! ## Scaling down and up again -/

/-- A number that whole numbers are scaled by. -/
structure IsScale (y : Float32) : Prop where
  /-- The scale is finite. -/
  isAmount : IsAmount y
  /-- A quotient does not grow. -/
  one_le : 1 ≤ toRat y
  /-- The scale has the range of the unsigned words. -/
  le : toRat y ≤ 2 ^ 32

theorem isScale_one : IsScale 1.0 :=
  ⟨one_isAmount, toRat_one.ge, toRat_one.trans_le (by norm_num)⟩

/-- A counter that is not zero can scale. -/
theorem isScale_ofNat (hpos : 0 < n) (hn : n < 2 ^ 32) : IsScale (ofNat n) := by
  obtain ⟨hamount, hle⟩ := ofNat_isAmount hn
  obtain ⟨b, hview, hone⟩ := exists_view_ofNat hn false
  rw [signed, if_neg Bool.false_ne_true] at hview
  refine ⟨hamount, ?_, hle⟩
  rw [toRat_of_view hview]
  exact hone hpos

namespace IsScale

variable (h : IsScale y)

include h

theorem toRat_pos : 0 < toRat y := zero_lt_one.trans_le h.one_le

theorem div_isAmount (hx : IsAmount x) : IsAmount (x / y) := by
  rw [div_eq_ofRat hx h.isAmount h.toRat_pos]
  exact (isAmount_ofRat hx (div_le_self (toRat_nonneg hx) h.one_le)).1

/-- How far the rounding of the quotient leads away. -/
theorem abs_div_mul_sub_le (hpos : 0 < n) (hn : n < 2 ^ 22) :
    |toRat (ofNat n / y) * toRat y - n| ≤ n / 2 ^ 24 := by
  have hy := h.toRat_pos
  have hamount : IsAmount (ofNat n) := (ofNat_isAmount (by omega)).1
  have hquotient := h.div_isAmount hamount
  rw [div_eq_ofRat hamount h.isAmount hy, toRat_ofNat (by omega)] at hquotient ⊢
  have hround : |toRat (ofRat (n / toRat y)) - n / toRat y| ≤ n / toRat y / 2 ^ 24 := by
    refine abs_toRat_ofRat_sub_le ?_ hquotient
    rw [le_div_iff₀ hy]
    have hlarge := h.le
    calc (2 : ℚ) ^ (-126 : ℤ) * toRat y ≤ 2 ^ (-126 : ℤ) * 2 ^ 32 := by gcongr
      _ ≤ 1 := by norm_num
      _ ≤ n := by exact_mod_cast hpos
  generalize toRat (ofRat (n / toRat y)) = quotient at hround ⊢
  have hfactor : quotient * toRat y - n = (quotient - n / toRat y) * toRat y := by field_simp
  rw [hfactor, abs_mul, abs_of_pos hy]
  calc |quotient - n / toRat y| * toRat y ≤ n / toRat y / 2 ^ 24 * toRat y := by gcongr
    _ = n / 2 ^ 24 := by field_simp

/-- The product is rounded once more. Below `2^22` both roundings together stay below one half. -/
theorem div_mul_near_of_pos (hpos : 0 < n) (hn : n < 2 ^ 22) :
    IsAmount (ofNat n / y * y) ∧ |toRat (ofNat n / y * y) - n| < 1 / 2 := by
  have hquotient := h.div_isAmount (ofNat_isAmount (n := n) (by omega)).1
  have hfirst := h.abs_div_mul_sub_le hpos hn
  rw [mul_eq hquotient h.isAmount]
  generalize toRat (ofNat n / y) * toRat y = product at hfirst
  obtain ⟨hlow, hhigh⟩ := abs_le.mp hfirst
  have hleast : (1 : ℚ) ≤ n := by exact_mod_cast hpos
  have hmost : (n : ℚ) + 1 ≤ 2 ^ 22 := by exact_mod_cast hn
  have htop : toRat (ofNat (2 ^ 23)) = 2 ^ 23 := by
    rw [toRat_ofNat (by norm_num)]
    norm_num
  have hproduct : IsAmount (ofRat product) := by
    refine (isAmount_ofRat (ofNat_isAmount (n := 2 ^ 23) (by norm_num)).1 ?_).1
    rw [htop]
    linarith
  have hsecond : |toRat (ofRat product) - product| ≤ product / 2 ^ 24 := by
    have htiny : (2 : ℚ) ^ (-126 : ℤ) ≤ 1 / 2 := by norm_num
    exact abs_toRat_ofRat_sub_le (htiny.trans (by linarith)) hproduct
  have htriangle := abs_sub_le (toRat (ofRat product)) product n
  exact ⟨hproduct, by linarith⟩

/-- A whole number that is scaled down and up again moves by less than one half. -/
theorem div_mul_near (hn : n < 2 ^ 22) :
    IsAmount (ofNat n / y * y) ∧ |toRat (ofNat n / y * y) - n| < 1 / 2 := by
  rcases Nat.eq_zero_or_pos n with rfl | hpos
  · have hzero : (ofNat 0 / y * y).toBits.toNat = 0 := by
      have hamount : IsAmount (ofNat 0) := (ofNat_isAmount (by norm_num)).1
      rw [mul_eq (h.div_isAmount hamount) h.isAmount, div_eq_ofRat hamount h.isAmount h.toRat_pos,
        toRat_ofNat (by norm_num), Nat.cast_zero, zero_div, ofRat_of_nonpos le_rfl,
        toRat_eq_zero toBits_zero, zero_mul, ofRat_of_nonpos le_rfl, toBits_zero]
    rw [toRat_eq_zero hzero, Nat.cast_zero, sub_zero, abs_zero]
    exact ⟨hzero.trans_lt (by decide), by norm_num⟩
  · exact h.div_mul_near_of_pos hpos hn

/-- A whole number that is scaled down and up again is rounded to itself. -/
theorem round_div_mul (hn : n < 2 ^ 22) (s : Bool) :
    round (signed s (ofNat n) / y * y) = signed s (ofNat n) := by
  have hamount : IsAmount (ofNat n) := (ofNat_isAmount (by omega)).1
  obtain ⟨hproduct, hnear⟩ := h.div_mul_near hn
  rw [signed_div hamount h.isAmount h.toRat_pos, signed_mul (h.div_isAmount hamount) h.isAmount]
  exact round_of_near hproduct hnear s

end IsScale

end Skycam.Single
