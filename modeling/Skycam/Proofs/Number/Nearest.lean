import Skycam.Proofs.Number.Rounding
import Mathlib.Algebra.Order.Group.Unbundled.Int
import Mathlib.Algebra.Ring.Int.Parity
import Mathlib.Tactic.Linarith

/-!
# Which values are rounded to a number

A value is rounded to a number that is at most half a last place away, and to an even one when it is
exactly half a place away (`BinaryFormat.claims_nearest`). The other way round, a number is what is
made of every value that it claims in this sense, unless it is a power of two, whose neighbour below
is nearer (`BinaryFormat.nearest_eq_of_claims`).
-/

namespace Skycam

/-! ## Division to nearest -/

section DivNearest

variable {num den : ℕ}

/-- The nearest quotient is at most half a unit away, and it is even if it is just half a unit
away. -/
theorem abs_sub_divNearest_mul_le (num : ℕ) (hden : 0 < den) :
    |2 * ((num : ℤ) - divNearest num den * den)| ≤ den ∧
      (|2 * ((num : ℤ) - divNearest num den * den)| = den → Even (divNearest num den)) := by
  have hdivision : (num : ℤ) = (num / den : ℕ) * den + (num % den : ℕ) := by
    exact_mod_cast (Nat.div_add_mod' num den).symm
  have hlt : num % den < den := Nat.mod_lt _ hden
  unfold divNearest
  dsimp only
  rw [hdivision]
  generalize num / den = q
  generalize num % den = r at *
  split
  · next hbelow =>
    have hrest : 2 * ((q : ℤ) * den + r - q * den) = 2 * r := by ring
    rw [hrest, abs_of_nonneg (by omega)]
    omega
  · split
    · next habove =>
      have hrest : 2 * ((q : ℤ) * den + r - (q + 1 : ℕ) * den) = 2 * r - 2 * den := by
        push_cast
        ring
      rw [hrest, abs_of_nonpos (by omega)]
      omega
    · next hbelow habove =>
      rcases Nat.even_or_odd q with heven | hodd
      · have hrest : 2 * ((q : ℤ) * den + r - q * den) = 2 * r := by ring
        rw [Nat.even_iff.mp heven, Nat.add_zero, hrest, abs_of_nonneg (by omega)]
        exact ⟨by omega, fun _ => heven⟩
      · have hrest : 2 * ((q : ℤ) * den + r - (q + 1 : ℕ) * den) = 2 * r - 2 * den := by
          push_cast
          ring
        rw [Nat.odd_iff.mp hodd, hrest, abs_of_nonpos (by omega)]
        exact ⟨by omega, fun _ => hodd.add_one⟩

/-- The distance of a quotient from a whole number, as one of whole numbers. -/
theorem abs_div_sub_divNearest (hden : 0 < den) (m : ℕ) :
    |(num / den : ℚ) - m| = (|2 * ((num : ℤ) - m * den)| : ℤ) / (2 * den) := by
  have hden' : (0 : ℚ) < den := by exact_mod_cast hden
  have hdiff : (num / den : ℚ) - m = 2 * (num - m * den) / (2 * den) := by
    field_simp
  rw [hdiff, abs_div, abs_of_pos (by positivity : (0 : ℚ) < 2 * den)]
  push_cast
  rfl

/-- What a quotient is divided to is at most half away, and even if it is. -/
theorem abs_div_sub_divNearest_le (num : ℕ) (hden : 0 < den) :
    |(num / den : ℚ) - divNearest num den| ≤ 1 / 2 ∧
      (|(num / den : ℚ) - divNearest num den| = 1 / 2 → Even (divNearest num den)) := by
  obtain ⟨hle, heven⟩ := abs_sub_divNearest_mul_le num hden
  have hden' : (0 : ℚ) < den := by exact_mod_cast hden
  rw [abs_div_sub_divNearest hden]
  refine ⟨?_, fun hhalf => heven ?_⟩
  · rw [div_le_div_iff₀ (by positivity) two_pos]
    have hle' : ((|2 * ((num : ℤ) - divNearest num den * den)| : ℤ) : ℚ) ≤ den := by
      exact_mod_cast hle
    linarith
  · rw [div_eq_div_iff (by positivity) two_ne_zero] at hhalf
    have heq : ((|2 * ((num : ℤ) - divNearest num den * den)| : ℤ) : ℚ) = den := by linarith
    exact_mod_cast heq

/-- No other integer is as near. -/
theorem divNearest_eq_of_abs_le {m : ℕ} (hden : 0 < den)
    (h : |(num / den : ℚ) - m| < 1 / 2 ∨ |(num / den : ℚ) - m| = 1 / 2 ∧ Even m) :
    divNearest num den = m := by
  obtain ⟨hle, heven⟩ := abs_div_sub_divNearest_le num hden
  generalize divNearest num den = k at *
  by_contra hne
  have hone : (1 : ℚ) ≤ |(k : ℚ) - m| := by
    have hstep : (1 : ℤ) ≤ |(k : ℤ) - m| := Int.one_le_abs (by omega)
    exact_mod_cast hstep
  have htriangle : |(k : ℚ) - m| ≤ |(num / den : ℚ) - k| + |(num / den : ℚ) - m| := by
    rw [abs_sub_comm (num / den : ℚ) k]
    exact abs_sub_le _ _ _
  rcases h with hless | ⟨hhalf, hm⟩
  · linarith
  · -- both are half away, so they are neighbours, and both are even
    have hk := heven (by linarith)
    have hnext : (|(k : ℤ) - m| : ℤ) ≤ 1 := by
      have hle : |(k : ℚ) - m| ≤ 1 := by linarith
      exact_mod_cast hle
    obtain ⟨i, rfl⟩ := hk
    obtain ⟨j, rfl⟩ := hm
    have hbounds := abs_le.mp hnext
    omega

end DivNearest

/-! ## Numbers and the values that they claim -/

namespace Binary

variable {f : BinaryFormat} {b : Binary} {x : ℚ}

/-- The weight of the last place. -/
def unit (b : Binary) : ℚ := 2 ^ b.exponent

theorem unit_pos (b : Binary) : 0 < b.unit := by
  unfold unit
  positivity

theorem toRat_eq (b : Binary) : b.toRat = b.mantissa * b.unit := rfl

theorem unit_le_toRat (hb : 0 < b.mantissa) : b.unit ≤ b.toRat := by
  have hone : (1 : ℚ) ≤ b.mantissa := by exact_mod_cast hb
  rw [toRat_eq]
  exact le_mul_of_one_le_left b.unit_pos.le hone

theorem mantissa_pos_of_toRat_pos (h : 0 < b.toRat) : 0 < b.mantissa := by
  rcases Nat.eq_zero_or_pos b.mantissa with hzero | hpos
  · rw [Binary.toRat, hzero, Nat.cast_zero, zero_mul] at h
    exact absurd h (lt_irrefl 0)
  · exact hpos

/-- Whether a value is less than half a last place away, or half a place and the mantissa is
even. -/
def Claims (b : Binary) (x : ℚ) : Prop :=
  |x - b.toRat| < b.unit / 2 ∨ |x - b.toRat| = b.unit / 2 ∧ Even b.mantissa

theorem Claims.le_half (h : b.Claims x) : |x - b.toRat| ≤ b.unit / 2 := by
  rcases h with hlt | ⟨heq, -⟩
  · exact hlt.le
  · exact heq.le

/-- What is not farther away is claimed as well. -/
theorem Claims.of_abs_le {y : ℚ} (h : b.Claims x) (hle : |y - b.toRat| ≤ |x - b.toRat|) :
    b.Claims y := by
  rcases h with hlt | ⟨heq, heven⟩
  · exact .inl (hle.trans_lt hlt)
  · rw [heq] at hle
    rcases hle.lt_or_eq with hlt | heq
    · exact .inl hlt
    · exact .inr ⟨heq, heven⟩

/-- What a number claims is between a half and one and a half of it. -/
theorem Claims.bounds (hb : 0 < b.mantissa) (h : b.Claims x) :
    b.toRat / 2 ≤ x ∧ x ≤ 3 / 2 * b.toRat := by
  obtain ⟨hlow, hhigh⟩ := abs_le.mp h.le_half
  have hunit := unit_le_toRat hb
  constructor
  · linarith
  · linarith

/-- A distance in units of the last place. -/
theorem abs_div_unit_sub (b : Binary) (x : ℚ) :
    |x / b.unit - b.mantissa| = |x - b.toRat| / b.unit := by
  have hunit := b.unit_pos
  rw [toRat_eq, ← abs_of_pos hunit, ← abs_div, abs_of_pos hunit, sub_div,
    mul_div_cancel_right₀ _ hunit.ne']

/-- Whether both neighbours of a number are equally far: no bit of it is given away, and it is not
the smallest one with its exponent. -/
structure Inner (f : BinaryFormat) (b : Binary) : Prop where
  /-- The format has the number. -/
  fits : b.Fits f
  /-- It is positive. -/
  mantissa_pos : 0 < b.mantissa
  /-- It is no power of two, or there is no smaller exponent. -/
  inner : b.exponent = f.minExponent ∨ 2 ^ (f.precision - 1) < b.mantissa

end Binary

namespace BinaryFormat

variable {f : BinaryFormat} {num den : ℕ}

/-- A rounded number claims the value that it was made from. -/
theorem claims_nearest (num : ℕ) (hden : 0 < den) :
    (f.nearest num den).Claims (num / den) := by
  have hmantissa := nearest_mantissa (f := f) num den
  generalize f.nearest num den = b at *
  have hscaled : 0 < den * 2 ^ b.exponent.toNat := by positivity
  obtain ⟨hle, heven⟩ := abs_div_sub_divNearest_le (num * 2 ^ (-b.exponent).toNat) hscaled
  rw [← hmantissa, scaled_div, ← Binary.unit, Binary.abs_div_unit_sub] at hle heven
  have hunit := b.unit_pos
  rcases hle.lt_or_eq with hlt | heq
  · left
    rw [div_lt_iff₀ hunit] at hlt
    linarith
  · right
    have hm := heven heq
    rw [div_eq_iff hunit.ne'] at heq
    exact ⟨by linarith, hm⟩

/-- A value is rounded to the number that claims it, unless that is a power of two. -/
theorem nearest_eq_of_claims {b : Binary} (hb : b.Inner f) (hden : 0 < den)
    (h : b.Claims (num / den)) : f.nearest num den = b := by
  have hunit := b.unit_pos
  have hpos : (0 : ℚ) < num / den := by
    have hbounds := h.bounds hb.mantissa_pos
    have htoRat := hunit.trans_le (Binary.unit_le_toRat hb.mantissa_pos)
    linarith
  have hnum : 0 < num := by
    rcases Nat.eq_zero_or_pos num with rfl | hnum
    · simp at hpos
    · exact hnum
  obtain ⟨hlow, hhigh⟩ := abs_le.mp h.le_half
  rw [Binary.toRat_eq] at hlow hhigh
  -- what the number claims has as many places as the number
  have hexponent : (f.nearest num den).exponent = b.exponent := by
    have hfits := hb.fits
    have hhighest : (num / den : ℚ) < ((2 : ℕ) : ℚ) ^ (b.exponent + f.precision) := by
      have hm : (b.mantissa : ℚ) + 1 ≤ 2 ^ f.precision := by exact_mod_cast hfits.mantissa_lt
      rw [Nat.cast_ofNat, zpow_add₀ two_ne_zero, zpow_natCast, ← Binary.unit]
      nlinarith
    have hlog := (Int.lt_zpow_iff_log_lt one_lt_two hpos).mp hhighest
    have hmin := hfits.le_exponent
    rw [nearest_exponent hnum hden]
    rcases hb.inner with hlast | hfull
    · omega
    · have hlowest : ((2 : ℕ) : ℚ) ^ (b.exponent + (f.precision - 1 : ℕ)) ≤ (num / den : ℚ) := by
        have hm : (2 : ℚ) ^ (f.precision - 1) + 1 ≤ b.mantissa := by exact_mod_cast hfull
        rw [Nat.cast_ofNat, zpow_add₀ two_ne_zero, zpow_natCast, ← Binary.unit]
        nlinarith
      have hlog' := (Int.zpow_le_iff_le_log one_lt_two hpos).mp hlowest
      have hprecision : f.precision ≠ 0 := by
        intro hzero
        have hm := hfits.mantissa_lt
        rw [hzero] at hm hfull
        omega
      omega
  have hmantissa : (f.nearest num den).mantissa = b.mantissa := by
    rw [nearest_mantissa, hexponent]
    refine divNearest_eq_of_abs_le (by positivity) ?_
    rw [scaled_div, ← Binary.unit, Binary.abs_div_unit_sub, div_lt_iff₀ hunit,
      div_eq_iff hunit.ne']
    rcases h with hlt | ⟨heq, heven⟩
    · left
      linarith
    · exact .inr ⟨by linarith, heven⟩
  exact congrArg₂ Binary.mk hmantissa hexponent

end BinaryFormat

end Skycam
