import Mathlib.Algebra.Order.Field.Power
import Mathlib.Data.Int.Log
import Mathlib.Data.Rat.Floor
import Mathlib.Tactic.Positivity
import Mathlib.Tactic.Ring
import Skycam.Number.Rounding

/-!
# Rounding depends on the value only

A quotient is rounded by its numerator and its denominator, but what comes out is the same for every
way to write its value (`BinaryFormat.nearest_congr`): the exponent of the last place is a logarithm
of the value (`floorLog2_eq_log`), and a division to nearest does not see a common factor. A number
that the format has rounds to itself (`BinaryFormat.nearest_self`).
-/

namespace Skycam

/-! ## Division to nearest -/

theorem divNearest_mul_left {t : ℕ} (ht : 0 < t) (num den : ℕ) :
    divNearest (t * num) (t * den) = divNearest num den := by
  have hdown : 2 * (t * (num % den)) < t * den ↔ 2 * (num % den) < den := by
    rw [Nat.mul_left_comm]
    exact Nat.mul_lt_mul_left ht
  have hup : t * den < 2 * (t * (num % den)) ↔ den < 2 * (num % den) := by
    rw [Nat.mul_left_comm]
    exact Nat.mul_lt_mul_left ht
  simp only [divNearest, Nat.mul_div_mul_left _ _ ht, Nat.mul_mod_mul_left, hdown, hup]

theorem divNearest_congr {num den num' den' : ℕ} (hden : 0 < den) (hden' : 0 < den')
    (h : num * den' = num' * den) : divNearest num den = divNearest num' den' := by
  rw [← divNearest_mul_left hden' num den, ← divNearest_mul_left hden num' den',
    Nat.mul_comm den' num, h, Nat.mul_comm num' den, Nat.mul_comm den' den]

theorem divNearest_mul_self {den : ℕ} (hden : 0 < den) (m : ℕ) : divNearest (m * den) den = m := by
  simp [divNearest, Nat.mul_div_cancel _ hden, hden]

/-- Rounding adds one to the whole part at most. -/
theorem divNearest_le (num den : ℕ) : divNearest num den ≤ num / den + 1 := by
  unfold divNearest
  dsimp only
  split
  · omega
  · split
    · omega
    · omega

/-- Rounding does not go beyond a whole number. -/
theorem divNearest_le_of_le {num den m : ℕ} (hden : 0 < den) (h : num ≤ m * den) :
    divNearest num den ≤ m := by
  have hle : num / den ≤ m := (Nat.div_le_iff_le_mul_add_pred hden).mpr (by linarith)
  rcases hle.lt_or_eq with hlt | heq
  · exact (divNearest_le num den).trans hlt
  · have hnum : num = m * den := le_antisymm h (heq ▸ Nat.div_mul_le_self num den)
    rw [hnum, divNearest_mul_self hden]

/-- Rounding does not go below the whole part. -/
theorem le_divNearest (num den : ℕ) : num / den ≤ divNearest num den := by
  unfold divNearest
  dsimp only
  split
  · omega
  · split
    · omega
    · omega

/-! ## Powers and their quotients -/

theorem zpow_eq_div {b : ℚ} (hb : b ≠ 0) (d : ℤ) : b ^ d = b ^ d.toNat / b ^ (-d).toNat := by
  rw [← zpow_natCast, ← zpow_natCast, ← zpow_sub₀ hb]
  congr 1
  omega

theorem zpow_le_div_iff {b num den : ℕ} (hb : 0 < b) (hden : 0 < den) (d : ℤ) :
    (b : ℚ) ^ d ≤ num / den ↔ den * b ^ d.toNat ≤ num * b ^ (-d).toNat := by
  have hb' : (0 : ℚ) < b := by exact_mod_cast hb
  have hden' : (0 : ℚ) < den := by exact_mod_cast hden
  rw [zpow_eq_div hb'.ne', div_le_div_iff₀ (by positivity) hden', mul_comm]
  exact_mod_cast Iff.rfl

/-- The logarithm of a quotient that is known up to one factor of the base. -/
theorem log_div_eq {b num den : ℕ} (hb : 1 < b) (hnum : 0 < num) (hden : 0 < den) {d : ℤ}
    (hlow : (b : ℚ) ^ (d - 1) ≤ num / den) (hhigh : (num / den : ℚ) < b ^ (d + 1)) :
    Int.log b (num / den : ℚ) =
      if den * b ^ d.toNat ≤ num * b ^ (-d).toNat then d else d - 1 := by
  have hpos : (0 : ℚ) < num / den := by positivity
  have hle := (Int.zpow_le_iff_le_log hb hpos).mp hlow
  have hlt := (Int.lt_zpow_iff_log_lt hb hpos).mp hhigh
  have hiff : (b : ℚ) ^ d ≤ num / den ↔ den * b ^ d.toNat ≤ num * b ^ (-d).toNat :=
    zpow_le_div_iff (Nat.zero_lt_of_lt hb) hden d
  rw [Int.zpow_le_iff_le_log hb hpos] at hiff
  split
  · next h =>
    have := hiff.mpr h
    omega
  · next h =>
    have := mt hiff.mp h
    omega

/-- The logarithm of a quotient whose parts have known logarithms. -/
theorem log_div_eq_of_pow_le {b num den m n : ℕ} (hb : 1 < b) (hnum : b ^ m ≤ num)
    (hnum' : num < b ^ (m + 1)) (hden : b ^ n ≤ den) (hden' : den < b ^ (n + 1)) :
    Int.log b (num / den : ℚ) =
      if den * b ^ ((m : ℤ) - n).toNat ≤ num * b ^ (-((m : ℤ) - n)).toNat then (m : ℤ) - n
      else (m : ℤ) - n - 1 := by
  have hbase : (b : ℚ) ≠ 0 := by exact_mod_cast (Nat.zero_lt_of_lt hb).ne'
  have hpower : ∀ k, 0 < b ^ k := fun k => Nat.pow_pos (Nat.zero_lt_of_lt hb)
  have hdenPos : (0 : ℚ) < den := by exact_mod_cast (hpower n).trans_le hden
  have hnumLow : (b : ℚ) ^ m ≤ num := by exact_mod_cast hnum
  have hnumHigh : (num : ℚ) < b ^ (m + 1) := by exact_mod_cast hnum'
  have hdenLow : (b : ℚ) ^ n ≤ den := by exact_mod_cast hden
  have hdenHigh : (den : ℚ) < b ^ (n + 1) := by exact_mod_cast hden'
  refine log_div_eq hb ((hpower m).trans_le hnum) ((hpower n).trans_le hden) ?_ ?_
  · rw [le_div_iff₀ hdenPos]
    calc (b : ℚ) ^ ((m : ℤ) - n - 1) * den ≤ b ^ ((m : ℤ) - n - 1) * b ^ (n + 1) := by gcongr
      _ = b ^ m := by
          rw [← zpow_natCast, ← zpow_natCast, ← zpow_add₀ hbase]
          congr 1
          push_cast
          ring
      _ ≤ num := hnumLow
  · rw [div_lt_iff₀ hdenPos]
    calc (num : ℚ) < b ^ (m + 1) := hnumHigh
      _ = b ^ ((m : ℤ) - n + 1) * b ^ n := by
          rw [← zpow_natCast, ← zpow_natCast, ← zpow_add₀ hbase]
          congr 1
          push_cast
          ring
      _ ≤ b ^ ((m : ℤ) - n + 1) * den := by gcongr

theorem floorLog2_eq_log {num den : ℕ} (hnum : 0 < num) (hden : 0 < den) :
    floorLog2 num den = Int.log 2 (num / den : ℚ) :=
  (log_div_eq_of_pow_le one_lt_two (Nat.log2_self_le hnum.ne') Nat.lt_log2_self
    (Nat.log2_self_le hden.ne') Nat.lt_log2_self).symm

/-- A power of the base counts in a logarithm with its exponent. -/
theorem log_mul_zpow {b : ℕ} (hb : 1 < b) {r : ℚ} (hr : 0 < r) (e : ℤ) :
    Int.log b (r * (b : ℚ) ^ e) = Int.log b r + e := by
  have hbase : (0 : ℚ) < b := by exact_mod_cast Nat.zero_lt_of_lt hb
  have hpos : 0 < r * (b : ℚ) ^ e := by positivity
  have hlow : (b : ℚ) ^ (Int.log b r + e) ≤ r * (b : ℚ) ^ e := by
    rw [zpow_add₀ hbase.ne']
    have hlog := Int.zpow_log_le_self hb hr
    gcongr
  have hhigh : r * (b : ℚ) ^ e < (b : ℚ) ^ (Int.log b r + e + 1) := by
    rw [add_right_comm, zpow_add₀ hbase.ne']
    have hlog := Int.lt_zpow_succ_log_self hb r
    gcongr
  have hle := (Int.zpow_le_iff_le_log hb hpos).mp hlow
  have hlt := (Int.lt_zpow_iff_log_lt hb hpos).mp hhigh
  omega

/-! ## Numbers of a format -/

namespace Binary

/-- The value of a number. -/
def toRat (b : Binary) : ℚ := b.mantissa * 2 ^ b.exponent

/-- Whether a format has a number: the mantissa has as many bits as there are, or fewer when the
exponent cannot be smaller. -/
structure Fits (f : BinaryFormat) (b : Binary) : Prop where
  /-- The mantissa is not too long. -/
  mantissa_lt : b.mantissa < 2 ^ f.precision
  /-- The exponent is not too small. -/
  le_exponent : f.minExponent ≤ b.exponent
  /-- The exponent is not too large. -/
  exponent_le : b.exponent ≤ f.maxExponent
  /-- No bit is given away. -/
  full : b.exponent = f.minExponent ∨ 2 ^ (f.precision - 1) ≤ b.mantissa

/-- Whether a number is what rounding makes: like a number of the format, but the mantissa may be
one power of two too long, and the exponent too large. -/
structure Rounded (f : BinaryFormat) (b : Binary) : Prop where
  /-- The mantissa is too long for a power of two only. -/
  mantissa_le : b.mantissa ≤ 2 ^ f.precision
  /-- The exponent is not too small. -/
  le_exponent : f.minExponent ≤ b.exponent
  /-- No bit is given away. -/
  full : b.exponent = f.minExponent ∨ 2 ^ (f.precision - 1) ≤ b.mantissa

theorem toRat_nonneg (b : Binary) : 0 ≤ b.toRat := by
  unfold toRat
  positivity

theorem num_div_den (b : Binary) : (b.num / b.den : ℚ) = b.toRat := by
  rw [toRat, zpow_eq_div two_ne_zero, num, den]
  simp only [Nat.pow_eq]
  push_cast
  ring

/-- The quotient of two numbers, as it is rounded, has the quotient of their values. -/
theorem div_toRat (a b : Binary) :
    ((a.num * b.den : ℕ) / (a.den * b.num : ℕ) : ℚ) = a.toRat / b.toRat := by
  rw [← a.num_div_den, ← b.num_div_den, div_div_div_eq]
  push_cast
  rfl

theorem num_pos {b : Binary} (hb : 0 < b.mantissa) : 0 < b.num :=
  Nat.mul_pos hb (Nat.two_pow_pos _)

theorem den_pos (b : Binary) : 0 < b.den := Nat.two_pow_pos _

end Binary

namespace BinaryFormat

variable {f : BinaryFormat}

/-- A number can be stored if its exponent is not too large, nor its mantissa with the largest
one. -/
theorem overflows_eq_false_iff {b : Binary} :
    f.overflows b = false ↔
      b.exponent ≤ f.maxExponent ∧
        (b.exponent = f.maxExponent → b.mantissa ≠ 2 ^ f.precision) := by
  simp [overflows]

/-- The last place of a rounded quotient. -/
theorem nearest_exponent {num den : ℕ} (hnum : 0 < num) (hden : 0 < den) :
    (f.nearest num den).exponent =
      max (Int.log 2 (num / den : ℚ) + 1 - f.precision) f.minExponent := by
  rw [← floorLog2_eq_log hnum hden]
  rfl

theorem nearest_mantissa (num den : ℕ) :
    (f.nearest num den).mantissa =
      divNearest (num * 2 ^ (-(f.nearest num den).exponent).toNat)
        (den * 2 ^ (f.nearest num den).exponent.toNat) := rfl

/-- What a quotient is rounded to depends on its value only. -/
theorem nearest_congr {num den num' den' : ℕ} (hnum : 0 < num) (hden : 0 < den)
    (hnum' : 0 < num') (hden' : 0 < den') (h : (num / den : ℚ) = num' / den') :
    f.nearest num den = f.nearest num' den' := by
  have hexponent : (f.nearest num den).exponent = (f.nearest num' den').exponent := by
    rw [nearest_exponent hnum hden, nearest_exponent hnum' hden', h]
  have hcross : num * den' = num' * den := by
    rw [div_eq_div_iff (by exact_mod_cast hden.ne') (by exact_mod_cast hden'.ne')] at h
    exact_mod_cast h
  have hmantissa : (f.nearest num den).mantissa = (f.nearest num' den').mantissa := by
    rw [nearest_mantissa, nearest_mantissa, hexponent]
    refine divNearest_congr (by positivity) (by positivity) ?_
    rw [mul_mul_mul_comm, hcross]
    ring
  exact congrArg₂ Binary.mk hmantissa hexponent

/-- A quotient in units of the last place. -/
theorem scaled_div {num den : ℕ} (q : ℤ) :
    ((num * 2 ^ (-q).toNat : ℕ) / (den * 2 ^ q.toNat : ℕ) : ℚ) = num / den / 2 ^ q := by
  rw [zpow_eq_div two_ne_zero q]
  push_cast
  field_simp

/-- The nearest number to a value is rounded as the format asks for. -/
theorem nearest_rounded {num den : ℕ} (hnum : 0 < num) (hden : 0 < den)
    (hprecision : 0 < f.precision) : (f.nearest num den).Rounded f := by
  have hpos : (0 : ℚ) < num / den := by positivity
  have hexponent := nearest_exponent (f := f) hnum hden
  have hmantissa := nearest_mantissa (f := f) num den
  generalize f.nearest num den = b at hexponent hmantissa ⊢
  obtain ⟨m, q⟩ := b
  dsimp only at hexponent hmantissa
  have hunit : (0 : ℚ) < 2 ^ q := by positivity
  have hscaled : 0 < den * 2 ^ q.toNat := by positivity
  have hscaled' : (0 : ℚ) < (den * 2 ^ q.toNat : ℕ) := by exact_mod_cast hscaled
  refine ⟨?_, (le_max_right _ _).trans_eq hexponent.symm, ?_⟩
  · have hhigh : (num / den : ℚ) < ((2 : ℕ) : ℚ) ^ (q + f.precision) :=
      (Int.lt_zpow_iff_log_lt one_lt_two hpos).mpr (by omega)
    have hlt : num * 2 ^ (-q).toNat < 2 ^ f.precision * (den * 2 ^ q.toNat) := by
      have hquotient : ((num * 2 ^ (-q).toNat : ℕ) / (den * 2 ^ q.toNat : ℕ) : ℚ) <
          2 ^ f.precision := by
        rw [scaled_div, div_lt_iff₀ hunit]
        rwa [Nat.cast_ofNat, zpow_add₀ two_ne_zero, zpow_natCast, mul_comm] at hhigh
      rw [div_lt_iff₀ hscaled'] at hquotient
      exact_mod_cast hquotient
    rw [hmantissa]
    exact divNearest_le_of_le hscaled hlt.le
  · rcases max_choice (Int.log 2 (num / den : ℚ) + 1 - f.precision) f.minExponent with hlog | hmin
    · right
      have hlow : ((2 : ℕ) : ℚ) ^ (q + (f.precision - 1 : ℕ)) ≤ (num / den : ℚ) :=
        (Int.zpow_le_iff_le_log one_lt_two hpos).mpr (by omega)
      have hle : 2 ^ (f.precision - 1) * (den * 2 ^ q.toNat) ≤ num * 2 ^ (-q).toNat := by
        have hquotient : (2 : ℚ) ^ (f.precision - 1) ≤
            ((num * 2 ^ (-q).toNat : ℕ) / (den * 2 ^ q.toNat : ℕ) : ℚ) := by
          rw [scaled_div, le_div_iff₀ hunit]
          rwa [Nat.cast_ofNat, zpow_add₀ two_ne_zero, zpow_natCast, mul_comm] at hlow
        rw [le_div_iff₀ hscaled'] at hquotient
        exact_mod_cast hquotient
      rw [hmantissa]
      exact ((Nat.le_div_iff_mul_le hscaled).mpr hle).trans (le_divNearest _ _)
    · exact .inl (hexponent.trans hmin)

/-- The largest number of a format. -/
def largest (f : BinaryFormat) : ℚ := (2 ^ f.precision - 1 : ℕ) * 2 ^ f.maxExponent

/-- What does not lie beyond the largest number is not rounded beyond it. -/
theorem overflows_nearest {num den : ℕ} (hnum : 0 < num) (hden : 0 < den)
    (hrange : f.minExponent ≤ f.maxExponent) (h : (num / den : ℚ) ≤ f.largest) :
    f.overflows (f.nearest num den) = false := by
  have hpos : (0 : ℚ) < num / den := by positivity
  have hbelow : ((2 ^ f.precision - 1 : ℕ) : ℚ) < 2 ^ f.precision := by
    exact_mod_cast Nat.sub_lt (Nat.two_pow_pos _) one_pos
  have hlog : Int.log 2 (num / den : ℚ) < f.precision + f.maxExponent := by
    refine (Int.lt_zpow_iff_log_lt one_lt_two hpos).mp (h.trans_lt ?_)
    rw [largest, Nat.cast_ofNat, zpow_add₀ two_ne_zero, zpow_natCast]
    gcongr
  have hexponent : (f.nearest num den).exponent ≤ f.maxExponent := by
    rw [nearest_exponent hnum hden]
    omega
  have hmantissa : (f.nearest num den).exponent = f.maxExponent →
      (f.nearest num den).mantissa ≠ 2 ^ f.precision := by
    intro hlast
    have hunit : (0 : ℚ) < 2 ^ f.maxExponent := by positivity
    have hscaled : 0 < den * 2 ^ f.maxExponent.toNat := by positivity
    have hscaled' : (0 : ℚ) < (den * 2 ^ f.maxExponent.toNat : ℕ) := by exact_mod_cast hscaled
    have hle : num * 2 ^ (-f.maxExponent).toNat ≤
        (2 ^ f.precision - 1) * (den * 2 ^ f.maxExponent.toNat) := by
      have hquotient : ((num * 2 ^ (-f.maxExponent).toNat : ℕ) /
          (den * 2 ^ f.maxExponent.toNat : ℕ) : ℚ) ≤ (2 ^ f.precision - 1 : ℕ) := by
        rwa [scaled_div, div_le_iff₀ hunit]
      rw [div_le_iff₀ hscaled'] at hquotient
      exact_mod_cast hquotient
    have hpower := Nat.two_pow_pos f.precision
    rw [nearest_mantissa, hlast]
    have hshort := divNearest_le_of_le hscaled hle
    omega
  exact overflows_eq_false_iff.mpr ⟨hexponent, hmantissa⟩

/-- A number of the format rounds to itself. -/
theorem nearest_self {b : Binary} (hfits : b.Fits f) (hb : 0 < b.mantissa) :
    f.nearest b.num b.den = b := by
  have hlog : Int.log 2 (b.num / b.den : ℚ) = Nat.log 2 b.mantissa + b.exponent := by
    rw [b.num_div_den]
    have hlog := log_mul_zpow one_lt_two (r := b.mantissa) (by exact_mod_cast hb) b.exponent
    rwa [Int.log_natCast] at hlog
  have hshort : Nat.log 2 b.mantissa < f.precision := Nat.log_lt_of_lt_pow hb.ne' hfits.mantissa_lt
  have hexponent : (f.nearest b.num b.den).exponent = b.exponent := by
    have hmin := hfits.le_exponent
    rw [nearest_exponent (Binary.num_pos hb) b.den_pos, hlog]
    rcases hfits.full with hlast | hfull
    · omega
    · have := Nat.le_log_of_pow_le one_lt_two hfull
      omega
  have hmantissa : (f.nearest b.num b.den).mantissa = b.mantissa := by
    rw [nearest_mantissa, hexponent, Binary.num, Binary.den, Nat.pow_eq, Nat.pow_eq, mul_assoc,
      mul_comm (2 ^ b.exponent.toNat)]
    exact divNearest_mul_self (by positivity) b.mantissa
  exact congrArg₂ Binary.mk hmantissa hexponent

/-- No number that fits is beyond the largest one. -/
theorem toRat_le_largest {b : Binary} (hfits : b.Fits f) : b.toRat ≤ f.largest := by
  have hmantissa := hfits.mantissa_lt
  have hexponent := hfits.exponent_le
  unfold Binary.toRat largest
  gcongr
  · omega
  · norm_num

theorem overflows_eq_false {b : Binary} (hfits : b.Fits f) : f.overflows b = false :=
  overflows_eq_false_iff.mpr ⟨hfits.exponent_le, fun _ => hfits.mantissa_lt.ne⟩

theorem overflows_eq_false_of_lt {b : Binary} (h : b.exponent < f.maxExponent) :
    f.overflows b = false :=
  overflows_eq_false_iff.mpr ⟨h.le, fun hlast => absurd hlast h.ne⟩

end BinaryFormat

/-- A rounded number is a number of the format unless it is too large. -/
theorem Binary.Rounded.exists_fits {f : BinaryFormat} {b : Binary} (h : b.Rounded f)
    (hprecision : 0 < f.precision) (hover : f.overflows b = false) :
    b.Fits f ∨ b.mantissa = 2 ^ f.precision ∧
      (⟨2 ^ (f.precision - 1), b.exponent + 1⟩ : Binary).Fits f := by
  have hexponent := BinaryFormat.overflows_eq_false_iff.mp hover
  rcases h.mantissa_le.lt_or_eq with hlt | heq
  · exact .inl ⟨hlt, h.le_exponent, hexponent.1, h.full⟩
  · have hless : b.exponent ≠ f.maxExponent := fun hmax => hexponent.2 hmax heq
    have hmin := h.le_exponent
    refine .inr ⟨heq, ⟨?_, ?_, ?_, .inr le_rfl⟩⟩
    · exact Nat.pow_lt_pow_right one_lt_two (by omega)
    · show f.minExponent ≤ b.exponent + 1
      omega
    · show b.exponent + 1 ≤ f.maxExponent
      omega

end Skycam
