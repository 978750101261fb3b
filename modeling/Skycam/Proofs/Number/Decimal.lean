import Skycam.Number.Shortest
import Skycam.Proofs.Number.Rounding

/-!
# Decimals and the numbers they round to

Like a quotient, a decimal is rounded by its value (`Decimal.nearest_congr`): zeros at its end do
not matter. So a decimal with the value of a number of single precision gives that number, and the
shortest one gives it too, which need not have its value (`Single.ofDecimal_shortest`).
-/

namespace Skycam

/-- The number of digits is the whole part of the logarithm, and one. -/
theorem digitCount_eq_log {n : ℕ} (hn : 0 < n) : digitCount n = Nat.log 10 n + 1 := by
  have hle : digitCount n ≤ Nat.log 10 n + 1 :=
    (Nat.length_toDigits_le_iff (by norm_num) (Nat.succ_pos _)).mpr
      (Nat.lt_pow_succ_log_self (by norm_num) n)
  have hpos : 0 < digitCount n := Nat.length_toDigits_pos
  have hlt : n < 10 ^ digitCount n :=
    (Nat.length_toDigits_le_iff (by norm_num) hpos).mp (Nat.le_refl _)
  have hge : Nat.log 10 n < digitCount n := Nat.log_lt_of_lt_pow hn.ne' hlt
  omega

/-- The largest power of ten within a fraction is that of its logarithm. -/
theorem floorLog10_eq_log {num den : ℕ} (hnum : 0 < num) (hden : 0 < den) :
    floorLog10 num den = Int.log 10 (num / den : ℚ) := by
  have hlog := log_div_eq_of_pow_le (b := 10) (by norm_num) (Nat.pow_log_le_self 10 hnum.ne')
    (Nat.lt_pow_succ_log_self (by norm_num) num) (Nat.pow_log_le_self 10 hden.ne')
    (Nat.lt_pow_succ_log_self (by norm_num) den)
  have hcount : (digitCount num - digitCount den : ℤ) = Nat.log 10 num - Nat.log 10 den := by
    rw [digitCount_eq_log hnum, digitCount_eq_log hden]
    push_cast
    ring
  rw [hlog, ← hcount]
  rfl

namespace Decimal

/-- The value of a decimal. -/
def toRat (d : Decimal) : ℚ := d.coefficient * 10 ^ d.exponent

theorem num_div_den (d : Decimal) : (d.num / d.den : ℚ) = d.toRat := by
  rw [toRat, zpow_eq_div (by norm_num : (10 : ℚ) ≠ 0), num, den]
  simp only [Nat.pow_eq]
  push_cast
  ring

theorem num_pos {d : Decimal} (hd : 0 < d.coefficient) : 0 < d.num :=
  Nat.mul_pos hd (Nat.pow_pos (by norm_num))

theorem den_pos (d : Decimal) : 0 < d.den := Nat.pow_pos (by norm_num)

theorem toRat_eq_zero {d : Decimal} : d.toRat = 0 ↔ d.coefficient = 0 := by
  simp [toRat, zpow_ne_zero]

/-- How far a decimal reaches before the point is a logarithm of its value. -/
theorem places_eq_log {d : Decimal} (hd : 0 < d.coefficient) :
    (digitCount d.coefficient + d.exponent : ℤ) = Int.log 10 d.toRat + 1 := by
  have hlog : Int.log 10 d.toRat = Nat.log 10 d.coefficient + d.exponent := by
    have hlog := log_mul_zpow (by norm_num : 1 < 10) (r := d.coefficient) (by exact_mod_cast hd)
      d.exponent
    rwa [Int.log_natCast] at hlog
  rw [hlog, digitCount_eq_log hd]
  push_cast
  ring

/-- What a decimal is rounded to depends on its value only. -/
theorem nearest_congr {f : BinaryFormat} {d d' : Decimal} (h : d.toRat = d'.toRat) :
    d.nearest f = d'.nearest f := by
  have hzero : d.coefficient = 0 ↔ d'.coefficient = 0 := by
    rw [← toRat_eq_zero, h, toRat_eq_zero]
  by_cases hd : d.coefficient = 0
  · simp only [nearest, hd, hzero.mp hd, true_or, if_true]
  · have hpos := Nat.pos_of_ne_zero hd
    have hpos' := Nat.pos_of_ne_zero (mt hzero.mpr hd)
    have hplaces : (digitCount d.coefficient + d.exponent : ℤ) =
        digitCount d'.coefficient + d'.exponent := by
      rw [places_eq_log hpos, places_eq_log hpos', h]
    have hround : f.nearest d.num d.den = f.nearest d'.num d'.den :=
      BinaryFormat.nearest_congr (num_pos hpos) d.den_pos (num_pos hpos') d'.den_pos
        (by rw [num_div_den, num_div_den, h])
    simp only [nearest, hzero, hplaces, hround]

/-- A binary number has the same value as a decimal. -/
theorem ofBinary_toRat (b : Binary) : (ofBinary b).toRat = b.toRat := by
  unfold ofBinary
  split
  · next h =>
    obtain ⟨e, he⟩ := Int.eq_ofNat_of_zero_le h
    simp [toRat, Binary.toRat, Binary.num, he]
  · next h =>
    obtain ⟨e, he⟩ : ∃ e : ℕ, b.exponent = -e := ⟨(-b.exponent).toNat, by omega⟩
    simp only [toRat, Binary.toRat, he, neg_neg, Int.toNat_natCast, Nat.pow_eq, zpow_neg,
      zpow_natCast]
    have hten : (10 : ℚ) ^ e = 2 ^ e * 5 ^ e := by
      rw [← mul_pow]
      norm_num
    rw [hten]
    push_cast
    field_simp

end Decimal

namespace Single

/-- The size of a number of single precision. -/
abbrev Fits (b : Binary) : Prop := b.Fits BinaryFormat.single

theorem Fits.eq_zero {b : Binary} (hfits : Fits b) (hb : b.mantissa = 0) : b = ⟨0, -149⟩ := by
  have hexponent : b.exponent = -149 := hfits.full.resolve_right (by simp [hb])
  exact congrArg₂ Binary.mk hb hexponent

/-- The weight of the first digit of a number of single precision. -/
theorem Fits.log_toRat {b : Binary} (hfits : Fits b) (hb : 0 < b.mantissa) :
    -45 ≤ Int.log 10 b.toRat ∧ Int.log 10 b.toRat < 39 := by
  have hmin : (-149 : ℤ) ≤ b.exponent := hfits.le_exponent
  have hmax : b.exponent ≤ 104 := hfits.exponent_le
  have hmantissa : b.mantissa < 2 ^ 24 := hfits.mantissa_lt
  have hpos : 0 < b.toRat := by
    unfold Binary.toRat
    positivity
  have hlow : ((10 : ℕ) : ℚ) ^ (-45 : ℤ) ≤ b.toRat := by
    calc ((10 : ℕ) : ℚ) ^ (-45 : ℤ) ≤ 1 * 2 ^ (-149 : ℤ) := by norm_num
      _ ≤ b.mantissa * 2 ^ b.exponent := by
        gcongr
        · exact_mod_cast hb
        · norm_num
  have hhigh : b.toRat < ((10 : ℕ) : ℚ) ^ (39 : ℤ) := by
    calc (b.mantissa : ℚ) * 2 ^ b.exponent ≤ 2 ^ 24 * 2 ^ (104 : ℤ) := by
          gcongr
          · exact_mod_cast hmantissa.le
          · norm_num
      _ < ((10 : ℕ) : ℚ) ^ (39 : ℤ) := by norm_num
  exact ⟨(Int.zpow_le_iff_le_log (by norm_num) hpos).mp hlow,
    (Int.lt_zpow_iff_log_lt (by norm_num) hpos).mp hhigh⟩

/-- A decimal with the value of a number of single precision rounds to it. -/
theorem nearest_eq_some {d : Decimal} {b : Binary} (hfits : Fits b) (h : d.toRat = b.toRat) :
    d.nearest BinaryFormat.single = some b := by
  by_cases hb : b.mantissa = 0
  · have hd : d.coefficient = 0 := by
      rw [← Decimal.toRat_eq_zero, h, Binary.toRat, hb, Nat.cast_zero, zero_mul]
    rw [hfits.eq_zero hb]
    simp [Decimal.nearest, hd, BinaryFormat.single]
  · have hpos := Nat.pos_of_ne_zero hb
    have hd : d.coefficient ≠ 0 := by
      rw [ne_eq, ← Decimal.toRat_eq_zero, h, Binary.toRat]
      positivity
    obtain ⟨hlow, hhigh⟩ := hfits.log_toRat hpos
    rw [← h] at hlow hhigh
    have hplaces := Decimal.places_eq_log (Nat.pos_of_ne_zero hd)
    have hround : BinaryFormat.single.nearest d.num d.den = b := by
      rw [← BinaryFormat.nearest_self hfits hpos]
      exact BinaryFormat.nearest_congr (Decimal.num_pos (Nat.pos_of_ne_zero hd)) d.den_pos
        (Binary.num_pos hpos) b.den_pos (by rw [Decimal.num_div_den, Binary.num_div_den, h])
    have hnear : ¬(digitCount d.coefficient + d.exponent : ℤ) < -400 := by omega
    have hfar : ¬(400 : ℤ) < digitCount d.coefficient + d.exponent := by omega
    simp [Decimal.nearest, hd, hnear, hfar, hround, BinaryFormat.overflows_eq_false hfits]

theorem ofDecimal_congr {d d' : Decimal} (h : d.toRat = d'.toRat) :
    ofDecimal d = ofDecimal d' := by
  rw [ofDecimal, ofDecimal, Decimal.nearest_congr h]

theorem ofDecimal_eq_ofBinary {d : Decimal} {b : Binary} (hfits : Fits b)
    (h : d.toRat = b.toRat) : ofDecimal d = ofBinary b := by
  rw [ofDecimal, nearest_eq_some hfits h]

/-- The shortest decimal of a number gives the number. -/
theorem ofDecimal_shortest (tie : Decimal.Tie) {b : Binary} (hfits : Fits b) :
    ofDecimal (shortest tie b) = ofBinary b := by
  unfold shortest
  split
  · next hb => exact ofDecimal_eq_ofBinary hfits (by simp [Decimal.toRat, Binary.toRat, hb])
  · unfold Decimal.shortest
    dsimp only
    -- a candidate was taken because it reads back; all digits have the value of the number
    cases hfind : List.find? (fun d => decide (ofDecimal d = ofBinary b)) _ with
    | some d => exact of_decide_eq_true (List.find?_some hfind :)
    | none => exact ofDecimal_eq_ofBinary hfits (Decimal.ofBinary_toRat b)

end Single

end Skycam
