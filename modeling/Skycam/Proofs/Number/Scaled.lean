import Skycam.Number.Scaled
import Skycam.Proofs.Number.Decimal
import Skycam.Proofs.Number.Nearest

/-!
# How far scaling goes astray

A decimal that is scaled at double precision is rounded three times at most: the coefficient, the
power of ten and the result. Of 53 bits the coefficient is exact, so the result is off by little
more than two roundings (`Decimal.scaled_spec`); and with a power of ten up to the 22nd it is the
nearest number, so a value that double precision has is met.
-/

namespace Skycam

namespace BinaryFormat

variable {f : BinaryFormat} {num den : ℕ}

/-- Rounding moves a value that is not too small by a small part of it. -/
theorem abs_nearest_sub_le (hnum : 0 < num) (hden : 0 < den)
    (hlow : (2 : ℚ) ^ (f.minExponent + f.precision - 1) ≤ num / den) :
    |(f.nearest num den).toRat - num / den| ≤ num / den / 2 ^ f.precision := by
  have hpos : (0 : ℚ) < num / den := by positivity
  have hlog : f.minExponent + f.precision - 1 ≤ Int.log 2 (num / den : ℚ) :=
    (Int.zpow_le_iff_le_log one_lt_two hpos).mp (by exact_mod_cast hlow)
  have hexponent : (f.nearest num den).exponent = Int.log 2 (num / den : ℚ) + 1 - f.precision := by
    rw [nearest_exponent hnum hden]
    exact max_eq_left (by omega)
  have hunit : (f.nearest num den).unit / 2 =
      2 ^ Int.log 2 (num / den : ℚ) / 2 ^ f.precision := by
    rw [Binary.unit, hexponent, zpow_sub₀ two_ne_zero, zpow_add_one₀ two_ne_zero, zpow_natCast]
    ring
  have hfloor : (2 : ℚ) ^ Int.log 2 (num / den : ℚ) ≤ num / den := by
    exact_mod_cast Int.zpow_log_le_self one_lt_two hpos
  rw [abs_sub_comm]
  refine (claims_nearest num hden).le_half.trans ?_
  rw [hunit]
  gcongr

/-- A value that the format has is met. -/
theorem toRat_nearest {n : ℕ} {e : ℤ} (hden : 0 < den) (hn : 0 < n) (hshort : n < 2 ^ f.precision)
    (he : f.minExponent ≤ e) (hvalue : (num / den : ℚ) = n * 2 ^ e) :
    (f.nearest num den).toRat = num / den := by
  have hpos : (0 : ℚ) < num / den := by
    rw [hvalue]
    positivity
  have hnum : 0 < num := by
    rcases Nat.eq_zero_or_pos num with rfl | hnum
    · simp at hpos
    · exact hnum
  have hexponent : (f.nearest num den).exponent ≤ e := by
    have hlog : Int.log 2 (num / den : ℚ) = Nat.log 2 n + e := by
      have hlog := log_mul_zpow one_lt_two (r := n) (by exact_mod_cast hn) e
      rwa [Int.log_natCast, Nat.cast_ofNat, ← hvalue] at hlog
    have hbits : Nat.log 2 n < f.precision := Nat.log_lt_of_lt_pow hn.ne' hshort
    rw [nearest_exponent hnum hden]
    omega
  have hmantissa := nearest_mantissa (f := f) num den
  generalize f.nearest num den = b at *
  obtain ⟨k, hk⟩ : ∃ k : ℕ, e - b.exponent = k := ⟨(e - b.exponent).toNat, by omega⟩
  have hscaled : (num / den / b.unit : ℚ) = (n * 2 ^ k : ℕ) := by
    have hsplit : e = k + b.exponent := by omega
    rw [div_eq_iff b.unit_pos.ne', hvalue, Binary.unit, hsplit, zpow_add₀ two_ne_zero, zpow_natCast]
    push_cast
    ring
  have hexact : b.mantissa = n * 2 ^ k := by
    rw [hmantissa]
    refine divNearest_eq_of_abs_le (by positivity) (.inl ?_)
    rw [scaled_div, ← Binary.unit, hscaled, sub_self, abs_zero]
    norm_num
  rw [Binary.toRat_eq, hexact, ← hscaled, div_mul_cancel₀ _ b.unit_pos.ne']

end BinaryFormat

/-- The product of two numbers, as it is rounded, has the product of their values. -/
theorem Binary.mul_toRat (a b : Binary) :
    ((a.num * b.num : ℕ) / (a.den * b.den : ℕ) : ℚ) = a.toRat * b.toRat := by
  rw [← a.num_div_den, ← b.num_div_den, div_mul_div_comm]
  push_cast
  rfl

namespace Decimal

/-- A coefficient of 53 bits is exact. -/
theorem toRat_size {n : ℕ} (hn : 0 < n) (hshort : n < 2 ^ 53) :
    (BinaryFormat.double.nearest n 1).toRat = n := by
  have hvalue : (n / (1 : ℕ) : ℚ) = n * 2 ^ (0 : ℤ) := by simp
  rw [BinaryFormat.toRat_nearest one_pos hn hshort (by decide) hvalue, Nat.cast_one, div_one]

/-- A power of ten at double precision is off by one part in the precision at most. -/
theorem abs_doublePower_sub_le (n : ℕ) :
    |(doublePower n).toRat - 10 ^ n| ≤ 10 ^ n / 2 ^ 53 := by
  have hone : (1 : ℚ) ≤ 10 ^ n := one_le_pow₀ (by norm_num)
  have hrange : (2 : ℚ) ^ (BinaryFormat.double.minExponent + BinaryFormat.double.precision - 1) ≤
      (10 ^ n : ℕ) / (1 : ℕ) := by
    push_cast
    rw [div_one]
    exact (zpow_le_one_of_nonpos₀ one_le_two (by decide)).trans hone
  have herror := BinaryFormat.abs_nearest_sub_le (by positivity) one_pos hrange
  push_cast at herror
  rwa [div_one] at herror

/-- Powers of ten up to the 22nd are exact. -/
theorem toRat_doublePower {n : ℕ} (hn : n ≤ 22) : (doublePower n).toRat = 10 ^ n := by
  have hshort : 5 ^ n < 2 ^ 53 := by
    calc 5 ^ n ≤ 5 ^ 22 := Nat.pow_le_pow_right (by norm_num) hn
      _ < 2 ^ 53 := by norm_num
  have hvalue : ((10 ^ n : ℕ) / (1 : ℕ) : ℚ) = (5 ^ n : ℕ) * 2 ^ (n : ℤ) := by
    rw [zpow_natCast]
    push_cast
    rw [div_one, ← mul_pow]
    norm_num
  have hexact := BinaryFormat.toRat_nearest (f := BinaryFormat.double) one_pos (by positivity)
    hshort (by show (-1074 : ℤ) ≤ n; omega) hvalue
  push_cast at hexact
  rwa [div_one] at hexact

/-- The least value that is looked at here is far from the smallest number. -/
theorem two_zpow_le : (2 : ℚ) ^ (-1022 : ℤ) ≤ 10 ^ (-64 : ℤ) / 2 := by
  calc (2 : ℚ) ^ (-1022 : ℤ) ≤ 2 ^ (-250 : ℤ) := zpow_le_zpow_right₀ one_le_two (by norm_num)
    _ ≤ 10 ^ (-64 : ℤ) / 2 := by norm_num

/-- A value that is off by little more than one rounding, and rounded, is off by less than three. -/
theorem abs_nearest_sub_le {num den : ℕ} {v : ℚ} (hnum : 0 < num) (hden : 0 < den)
    (hlow : 10 ^ (-64 : ℤ) ≤ v) (hclose : |(num / den : ℚ) - v| ≤ 9 / 8 * (v / 2 ^ 53)) :
    |(BinaryFormat.double.nearest num den).toRat - v| ≤ 3 * (v / 2 ^ 53) := by
  have hpos : 0 < v := lt_of_lt_of_le (by positivity) hlow
  have hsmall : v / 2 ^ 53 ≤ v / 8 := div_le_div_of_nonneg_left hpos.le (by norm_num) (by norm_num)
  obtain ⟨hleft, hright⟩ := abs_le.mp hclose
  have hround : |(BinaryFormat.double.nearest num den).toRat - num / den| ≤ num / den / 2 ^ 53 := by
    refine BinaryFormat.abs_nearest_sub_le (f := BinaryFormat.double) hnum hden ?_
    have hhalf : v / 2 ≤ num / den := by linarith
    calc (2 : ℚ) ^ (-1022 : ℤ) ≤ 10 ^ (-64 : ℤ) / 2 := two_zpow_le
      _ ≤ v / 2 := by gcongr
      _ ≤ num / den := hhalf
  have hmore : (num / den : ℚ) / 2 ^ 53 ≤ 3 / 2 * (v / 2 ^ 53) := by
    rw [← mul_div_assoc]
    gcongr
    linarith
  have htriangle := abs_sub_le (BinaryFormat.double.nearest num den).toRat (num / den : ℚ) v
  linarith

section Power

variable {c t p : ℚ}

/-- What is multiplied by a power that is slightly off is slightly off. -/
theorem abs_mul_sub_le (hc : 0 ≤ c) (ht : 0 ≤ t) (hp : |p - t| ≤ t / 2 ^ 53) :
    |c * p - c * t| ≤ 9 / 8 * (c * t / 2 ^ 53) := by
  have hnonneg : 0 ≤ c * t / 2 ^ 53 := by positivity
  calc |c * p - c * t| = c * |p - t| := by rw [← mul_sub, abs_mul, abs_of_nonneg hc]
    _ ≤ c * (t / 2 ^ 53) := by gcongr
    _ = c * t / 2 ^ 53 := by ring
    _ ≤ 9 / 8 * (c * t / 2 ^ 53) := by linarith

/-- What is divided by a power that is slightly off is slightly off. -/
theorem abs_div_sub_le (hc : 0 ≤ c) (ht : 0 < t) (hp : |p - t| ≤ t / 2 ^ 53) :
    |c / p - c / t| ≤ 9 / 8 * (c / t / 2 ^ 53) := by
  have hsmall : t / 2 ^ 53 ≤ t / 9 := div_le_div_of_nonneg_left ht.le (by norm_num) (by norm_num)
  have hlow : 8 / 9 * t ≤ p := by
    have hleft := (abs_le.mp hp).1
    linarith
  have hpos : 0 < p := by linarith
  calc |c / p - c / t| = |c / t * ((t - p) / p)| := by
        congr 1
        field_simp
    _ = c / t * (|p - t| / p) := by
        rw [abs_mul, abs_div (t - p), abs_of_pos hpos, abs_of_nonneg (div_nonneg hc ht.le),
          abs_sub_comm]
    _ ≤ c / t * (t / 2 ^ 53 / (8 / 9 * t)) := by gcongr
    _ = 9 / 8 * (c / t / 2 ^ 53) := by
        field_simp

end Power

theorem doublePower_pos (n : ℕ) : 0 < (doublePower n).mantissa := by
  have hten : (0 : ℚ) < 10 ^ n := by positivity
  have hsmall : (10 : ℚ) ^ n / 2 ^ 53 ≤ 10 ^ n / 2 :=
    div_le_div_of_nonneg_left hten.le (by norm_num) (by norm_num)
  have hleft := (abs_le.mp (abs_doublePower_sub_le n)).1
  exact Binary.mantissa_pos_of_toRat_pos (by linarith)

/-- The size of a coefficient of 53 bits is not zero. -/
theorem size_pos {n : ℕ} (hn : 0 < n) (hshort : n < 2 ^ 53) :
    0 < (BinaryFormat.double.nearest n 1).mantissa := by
  apply Binary.mantissa_pos_of_toRat_pos
  rw [toRat_size hn hshort]
  exact_mod_cast hn

/-- A value that is far from the largest number can be stored at double precision. -/
theorem nearest_overflows_eq_false {num den : ℕ} (hnum : 0 < num) (hden : 0 < den)
    (h : (num / den : ℚ) < 2 ^ (250 : ℤ)) :
    BinaryFormat.double.overflows (BinaryFormat.double.nearest num den) = false := by
  have hlt : (num / den : ℚ) < ((2 : ℕ) : ℚ) ^ (250 : ℤ) := by exact_mod_cast h
  have hlog := (Int.lt_zpow_iff_log_lt one_lt_two (by positivity)).mp hlt
  refine BinaryFormat.overflows_eq_false_of_lt ?_
  rw [BinaryFormat.nearest_exponent hnum hden]
  exact max_lt (by show _ + 1 - ((53 : ℕ) : ℤ) < 971; omega) (by decide)

section Spec

variable {d : Decimal}

theorem le_toRat (hpos : 0 < d.coefficient) (hlow : -64 ≤ d.exponent) :
    (10 : ℚ) ^ (-64 : ℤ) ≤ d.toRat := by
  have hone : (1 : ℚ) ≤ d.coefficient := by exact_mod_cast hpos
  calc (10 : ℚ) ^ (-64 : ℤ) ≤ 10 ^ d.exponent := zpow_le_zpow_right₀ (by norm_num) hlow
    _ ≤ d.coefficient * 10 ^ d.exponent := le_mul_of_one_le_left (by positivity) hone

theorem within_powers (hlow : -64 ≤ d.exponent) (hhigh : d.exponent ≤ 50) :
    ¬d.exponent < -topPower ∧ ¬(topPower : ℤ) < d.exponent := by
  unfold topPower
  omega

/-- Whether a decimal is scaled by rounding a quotient that is off by little more than one rounding,
and by none when the power of ten is exact. -/
def ScaledFrom (d : Decimal) (num den : ℕ) : Prop :=
  0 < num ∧ 0 < den ∧ d.scaled = some (BinaryFormat.double.nearest num den) ∧
    |(num / den : ℚ) - d.toRat| ≤ 9 / 8 * (d.toRat / 2 ^ 53) ∧
    (-22 ≤ d.exponent → d.exponent ≤ 22 → (num / den : ℚ) = d.toRat)

/-- A short decimal with a negative exponent is one quotient by a power. -/
theorem exists_scaledFrom_of_neg (hpos : 0 < d.coefficient) (hshort : d.coefficient < 2 ^ 53)
    (hlow : -64 ≤ d.exponent) (hneg : d.exponent < 0) : ∃ num den, d.ScaledFrom num den := by
  obtain ⟨k, hk⟩ : ∃ k : ℕ, d.exponent = -k := ⟨(-d.exponent).toNat, by omega⟩
  obtain ⟨hsmallest, hlargest⟩ := within_powers (by omega : -64 ≤ d.exponent) (by omega)
  have hvalue : d.toRat = d.coefficient / 10 ^ k := by
    rw [toRat, hk, zpow_neg, zpow_natCast, div_eq_mul_inv]
  have hsize := toRat_size hpos hshort
  have hnum := Nat.mul_pos (Binary.num_pos (size_pos hpos hshort))
    (Binary.den_pos (doublePower k))
  have hden := Nat.mul_pos (Binary.den_pos (BinaryFormat.double.nearest d.coefficient 1))
    (Binary.num_pos (doublePower_pos k))
  refine ⟨_, _, hnum, hden, ?_, ?_, ?_⟩
  · simp only [scaled, hpos.ne', hsmallest, hlargest, hneg, or_self, if_false, if_true]
    rw [hk, neg_neg, Int.toNat_natCast]
    rfl
  · rw [Binary.div_toRat, hsize, hvalue]
    exact abs_div_sub_le (by positivity) (by positivity) (abs_doublePower_sub_le k)
  · intro hlow _
    rw [Binary.div_toRat, hsize, toRat_doublePower (by omega), hvalue]

/-- A short decimal with another exponent is one product with a power. -/
theorem exists_scaledFrom_of_nonneg (hpos : 0 < d.coefficient) (hshort : d.coefficient < 2 ^ 53)
    (hnonneg : ¬d.exponent < 0) (hhigh : d.exponent ≤ 50) : ∃ num den, d.ScaledFrom num den := by
  obtain ⟨k, hk⟩ : ∃ k : ℕ, d.exponent = k := ⟨d.exponent.toNat, by omega⟩
  obtain ⟨hsmallest, hlargest⟩ := within_powers (by omega : -64 ≤ d.exponent) (by omega)
  have hvalue : d.toRat = d.coefficient * 10 ^ k := by
    rw [toRat, hk, zpow_natCast]
  have hsize := toRat_size hpos hshort
  have hnum := Nat.mul_pos (Binary.num_pos (size_pos hpos hshort))
    (Binary.num_pos (doublePower_pos k))
  have hden := Nat.mul_pos (Binary.den_pos (BinaryFormat.double.nearest d.coefficient 1))
    (Binary.den_pos (doublePower k))
  have hclose := abs_mul_sub_le (c := d.coefficient) (by positivity) (by positivity)
    (abs_doublePower_sub_le k)
  rw [← hsize, ← Binary.mul_toRat, hsize, ← hvalue] at hclose
  refine ⟨_, _, hnum, hden, ?_, hclose, ?_⟩
  · have hlarge : d.toRat ≤ 2 ^ 53 * 10 ^ 50 := by
      rw [hvalue]
      gcongr
      · exact_mod_cast hshort.le
      · norm_num
      · omega
    have hover := nearest_overflows_eq_false hnum hden (by
      have hright := (abs_le.mp hclose).2
      have hsmall : d.toRat / 2 ^ 53 ≤ d.toRat / 2 :=
        div_le_div_of_nonneg_left (hvalue ▸ by positivity) (by norm_num) (by norm_num)
      calc _ ≤ 2 * d.toRat := by linarith
        _ ≤ 2 * (2 ^ 53 * 10 ^ 50) := by linarith
        _ < 2 ^ (250 : ℤ) := by norm_num)
    simp only [scaled, hpos.ne', hsmallest, hlargest, hnonneg, or_self, if_false]
    rw [hk, Int.toNat_natCast]
    exact if_neg (Bool.eq_false_iff.mp hover)
  · intro _ hhigh
    rw [Binary.mul_toRat, hsize, toRat_doublePower (by omega), hvalue]

/-- What a decimal is scaled to, with a coefficient of 53 bits and a power of ten from the 64th
below to the 50th above: it is off by less than three roundings, and by none when the power of ten
and the value of the decimal are numbers of double precision. -/
theorem scaled_spec (hpos : 0 < d.coefficient) (hshort : d.coefficient < 2 ^ 53)
    (hlow : -64 ≤ d.exponent) (hhigh : d.exponent ≤ 50) :
    ∃ s, d.scaled = some s ∧ |s.toRat - d.toRat| ≤ 3 * (d.toRat / 2 ^ 53) ∧
      ∀ (n : ℕ) (e : ℤ), 0 < n → n < 2 ^ 53 → -1074 ≤ e → d.toRat = n * 2 ^ e →
        -22 ≤ d.exponent → d.exponent ≤ 22 → s.toRat = d.toRat := by
  obtain ⟨num, den, hnum, hden, hscaled, hclose, hmet⟩ : ∃ num den, d.ScaledFrom num den := by
    by_cases hneg : d.exponent < 0
    · exact exists_scaledFrom_of_neg hpos hshort hlow hneg
    · exact exists_scaledFrom_of_nonneg hpos hshort hneg hhigh
  refine ⟨_, hscaled, abs_nearest_sub_le hnum hden (le_toRat hpos hlow) hclose, ?_⟩
  intro n e hn hshort' he hexact hlow' hhigh'
  rw [← hmet hlow' hhigh'] at hexact ⊢
  exact BinaryFormat.toRat_nearest hden hn hshort' he hexact

end Spec

end Decimal

end Skycam
