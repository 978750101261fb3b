import Skycam.Proofs.Number.Nearest
import Mathlib.Tactic.IntervalCases
import Mathlib.Tactic.LinearCombination

/-!
# How near short decimals come to midpoints

A multiple of a power of ten that lies very near to the midpoint of two numbers of single precision
makes the midpoint a good approximation of a power of ten by fractions. The Euclidean algorithm
finds the two best fractions with small denominators on either side (`Bracket.between`), and every
other fraction is a sum of multiples of them, which is farther away (`Bracket.Closed.eq_of_near`).
So all near misses are known. For a decimal as coarse as the numbers themselves there is one,
`7038531 · 10^(-32)` (`bracket_closed`).
-/

namespace Skycam

/-- A fraction near a given one, and the numerator of the difference. -/
structure Fraction where
  /-- The denominator. -/
  den : ℕ
  /-- The numerator. -/
  num : ℕ
  /-- How far the fraction is away, in units of the denominators. -/
  rest : ℕ

namespace Fraction

/-- Moves a fraction toward the given one by multiples of a fraction on the other side, as far as
its denominator stays below a limit and it does not cross over. -/
def improve (limit : ℕ) (fixed moving : Fraction) : Fraction :=
  let room := (limit - moving.den) / fixed.den
  let times := if fixed.rest = 0 then room else min room (moving.rest / fixed.rest)
  ⟨moving.den + times * fixed.den, moving.num + times * fixed.num,
    moving.rest - times * fixed.rest⟩

/-- Whether a fraction near one with the numerator `num` is of no concern: it is no midpoint, or is
met, or is too far away. -/
def Clear (num : ℕ) (a : Fraction) : Prop :=
  a.num % 2 = 0 ∨ 2 ^ 25 ≤ a.num ∨ a.rest = 0 ∨ 3 * num * a.den < 2 ^ 53 * a.rest

instance (num : ℕ) (a : Fraction) : Decidable (a.Clear num) :=
  inferInstanceAs (Decidable (_ ∨ _ ∨ _ ∨ _))

end Fraction

/-- No multiple of a fraction of no concern is a midpoint that is missed by little. -/
theorem Fraction.Clear.not_near {num x n m : ℕ} {d : ℤ} {a : Fraction} (h : a.Clear num)
    (hx : 0 < x) (hn : n = x * a.den) (hm : m = x * a.num) (hd : |d| = x * a.rest)
    (hodd : m % 2 = 1) (hshort : m < 2 ^ 25) (hne : d ≠ 0) :
    ¬2 ^ 53 * |d| ≤ 3 * (num : ℤ) * n := by
  intro hnear
  subst hn hm
  rw [hd] at hnear
  rcases h with heven | hlarge | hmet | hfar
  · rw [Nat.mul_mod, heven, mul_zero, Nat.zero_mod] at hodd
    cases hodd
  · have hle := Nat.le_mul_of_pos_left a.num hx
    omega
  · rw [hmet, Nat.cast_zero, mul_zero, abs_eq_zero] at hd
    exact hne hd
  · have hmul := Nat.mul_lt_mul_of_pos_left hfar hx
    zify at hmul
    push_cast at hnear
    linarith

/-- Two fractions, one on either side of a given one. -/
structure Bracket where
  /-- The one that is not greater. -/
  lower : Fraction
  /-- The one that is not less. -/
  upper : Fraction

namespace Bracket

/-- Moves both sides of a bracket in turn. -/
def narrow (limit : ℕ) : ℕ → Bracket → Bracket
  | 0, s => s
  | n + 1, s =>
    let upper := s.lower.improve limit s.upper
    let lower := upper.improve limit s.lower
    narrow limit n ⟨lower, upper⟩

/-- The narrowest bracket of `num / den` with denominators up to `2^24`. -/
def between (num den : ℕ) : Bracket :=
  narrow (2 ^ 24) 20 ⟨⟨1, num / den, num % den⟩, ⟨0, 1, den⟩⟩

/-- Whether a bracket of `num / den` is as narrow as it can be with denominators below `2^24`, and
what is not on its sides is too far away. -/
structure Closed (num den : ℕ) (s : Bracket) : Prop where
  /-- The sides are neighbours. -/
  neighbours : s.lower.den * s.upper.num = s.upper.den * s.lower.num + 1
  /-- How far the lower side is away. -/
  lower_rest : s.lower.den * num = s.lower.num * den + s.lower.rest
  /-- How far the upper side is away. -/
  upper_rest : s.upper.num * den = s.upper.den * num + s.upper.rest
  /-- Between the sides there is no fraction with a smaller denominator. -/
  narrow : 2 ^ 24 ≤ s.lower.den + s.upper.den
  /-- What is not on the sides is too far away. -/
  far : 3 * num * 2 ^ 24 < 2 ^ 53 * (s.lower.rest + s.upper.rest)

instance (num den : ℕ) (s : Bracket) : Decidable (Closed num den s) :=
  decidable_of_iff (s.lower.den * s.upper.num = s.upper.den * s.lower.num + 1 ∧
      s.lower.den * num = s.lower.num * den + s.lower.rest ∧
      s.upper.num * den = s.upper.den * num + s.upper.rest ∧
      2 ^ 24 ≤ s.lower.den + s.upper.den ∧
      3 * num * 2 ^ 24 < 2 ^ 53 * (s.lower.rest + s.upper.rest))
    ⟨fun ⟨h₁, h₂, h₃, h₄, h₅⟩ => ⟨h₁, h₂, h₃, h₄, h₅⟩,
      fun ⟨h₁, h₂, h₃, h₄, h₅⟩ => ⟨h₁, h₂, h₃, h₄, h₅⟩⟩

/-- A fraction with a small denominator that is near is a multiple of a side. -/
theorem Closed.eq_of_near {num den n m : ℕ} {s : Bracket} (h : s.Closed num den) (hn : 0 < n)
    (hn' : n < 2 ^ 24) (hnear : 2 ^ 53 * |(num : ℤ) * n - den * m| ≤ 3 * num * n) :
    ∃ x : ℕ, 0 < x ∧ ∃ a, (a = s.lower ∨ a = s.upper) ∧ n = x * a.den ∧ m = x * a.num ∧
      |(num : ℤ) * n - den * m| = x * a.rest := by
  obtain ⟨hneighbours, hlower, hupper, hnarrow, hfar⟩ := h
  obtain ⟨⟨ld, ln, lr⟩, ⟨ud, un, ur⟩⟩ := s
  dsimp only at hneighbours hlower hupper hnarrow hfar
  zify at hneighbours hlower hupper hnarrow hfar hn hn'
  -- the fraction is a sum of multiples of the sides, since these are neighbours
  obtain ⟨x, hx⟩ : ∃ x : ℤ, x = n * un - m * ud := ⟨_, rfl⟩
  obtain ⟨y, hy⟩ : ∃ y : ℤ, y = m * ld - n * ln := ⟨_, rfl⟩
  have hden : (n : ℤ) = x * ld + y * ud := by
    rw [hx, hy]
    linear_combination -(n : ℤ) * hneighbours
  have hnum : (m : ℤ) = x * ln + y * un := by
    rw [hx, hy]
    linear_combination -(m : ℤ) * hneighbours
  have hdiff : (num : ℤ) * n - den * m = x * lr - y * ur := by
    rw [hden, hnum]
    linear_combination x * hlower - y * hupper
  rw [hdiff] at hnear
  have hsum : 2 ^ 53 * |x * lr - y * ur| < 2 ^ 53 * ((lr : ℤ) + ur) := by
    have hscale : 3 * (num : ℤ) * n ≤ 3 * num * 2 ^ 24 := by gcongr
    linarith
  have hless : |x * lr - y * ur| < (lr : ℤ) + ur := lt_of_mul_lt_mul_left hsum (by norm_num)
  obtain ⟨hleft, hright⟩ := abs_lt.mp hless
  have hld : (0 : ℤ) ≤ ld := by positivity
  have hud : (0 : ℤ) ≤ ud := by positivity
  have hlr : (0 : ℤ) ≤ lr := by positivity
  have hur : (0 : ℤ) ≤ ur := by positivity
  rcases lt_trichotomy y 0 with hneg | hzero | hpos
  · have hxpos : 0 < x := by
      by_contra hle
      nlinarith
    nlinarith
  · subst hzero
    have hxpos : 0 < x := by
      by_contra hle
      nlinarith
    obtain ⟨k, rfl⟩ := Int.eq_ofNat_of_zero_le hxpos.le
    rw [zero_mul, add_zero] at hden hnum
    rw [zero_mul, sub_zero] at hdiff
    refine ⟨k, by exact_mod_cast hxpos, _, .inl rfl, by exact_mod_cast hden,
      by exact_mod_cast hnum, ?_⟩
    rw [hdiff]
    exact abs_of_nonneg (by positivity)
  · rcases lt_trichotomy x 0 with hxneg | hxzero | hxpos
    · nlinarith
    · subst hxzero
      obtain ⟨k, rfl⟩ := Int.eq_ofNat_of_zero_le hpos.le
      rw [zero_mul, zero_add] at hden hnum
      rw [zero_mul, zero_sub] at hdiff
      refine ⟨k, by exact_mod_cast hpos, _, .inr rfl, by exact_mod_cast hden,
        by exact_mod_cast hnum, ?_⟩
      rw [hdiff, abs_neg]
      exact abs_of_nonneg (by positivity)
    · nlinarith

end Bracket

/-! ## Powers of ten -/

namespace Decimal

/-- The exponent of the greatest power of two that is not above `10^k`. -/
def stepExponent (k : ℤ) : ℤ := floorLog2 (Nat.pow 10 k.toNat) (Nat.pow 10 (-k).toNat)

/-- The numerator of `10^k` in units of half the power of two below it. -/
def stepNum (k : ℤ) : ℕ := Nat.pow 10 k.toNat * Nat.pow 2 (1 - stepExponent k).toNat

/-- The denominator of `10^k` in units of half the power of two below it. -/
def stepDen (k : ℤ) : ℕ := Nat.pow 10 (-k).toNat * Nat.pow 2 (stepExponent k - 1).toNat

/-- The best fractions around `10^k` in units of half the power of two below it. -/
def stepBracket (k : ℤ) : Bracket := Bracket.between (stepNum k) (stepDen k)

/-- What is checked of a power of ten. -/
structure Settled (k : ℤ) : Prop where
  /-- The best fractions are known. -/
  closed : (stepBracket k).Closed (stepNum k) (stepDen k)
  /-- The lower one is of no concern. -/
  lower : (stepBracket k).lower.Clear (stepNum k)
  /-- The upper one is of no concern, but for one power. -/
  upper : (stepBracket k).upper.Clear (stepNum k) ∨
    k = -32 ∧ (stepBracket k).upper.den = 7038531 ∧ (stepBracket k).upper.num = 22841339
  /-- The power is at least the power of two below it. -/
  step_le : 2 * stepDen k ≤ stepNum k
  /-- The power is well below the next power of two. -/
  lt_step : 32 * stepNum k ≤ 127 * stepDen k

instance (k : ℤ) : Decidable (Settled k) :=
  decidable_of_iff ((stepBracket k).Closed (stepNum k) (stepDen k) ∧
      (stepBracket k).lower.Clear (stepNum k) ∧
      ((stepBracket k).upper.Clear (stepNum k) ∨
        k = -32 ∧ (stepBracket k).upper.den = 7038531 ∧ (stepBracket k).upper.num = 22841339) ∧
      2 * stepDen k ≤ stepNum k ∧ 32 * stepNum k ≤ 127 * stepDen k)
    ⟨fun ⟨h₁, h₂, h₃, h₄, h₅⟩ => ⟨h₁, h₂, h₃, h₄, h₅⟩,
      fun ⟨h₁, h₂, h₃, h₄, h₅⟩ => ⟨h₁, h₂, h₃, h₄, h₅⟩⟩

theorem settled {k : ℤ} (hlow : -44 ≤ k) (hhigh : k ≤ 38) : Settled k := by
  have hall : ∀ n < 83, Settled ((n : ℕ) - 44 : ℤ) := by decide +kernel
  have hk := hall (k + 44).toNat (by omega)
  have heq : (((k + 44).toNat : ℕ) : ℤ) - 44 = k := by omega
  rwa [heq] at hk

/-- The one multiple of a power of ten, of those that are as coarse as single precision, that misses
a midpoint by little. -/
theorem eq_of_near {k : ℤ} {n m : ℕ} (hlow : -44 ≤ k) (hhigh : k ≤ 38) (hn : 0 < n)
    (hn' : n < 2 ^ 24) (hodd : m % 2 = 1) (hm : m < 2 ^ 25)
    (hne : (stepNum k : ℤ) * n - stepDen k * m ≠ 0)
    (hnear : 2 ^ 53 * |(stepNum k : ℤ) * n - stepDen k * m| ≤ 3 * stepNum k * n) :
    k = -32 ∧ n = 7038531 ∧ m = 22841339 := by
  have hsettled := settled hlow hhigh
  obtain ⟨x, hx, a, ha, hden, hnum, hrest⟩ := hsettled.closed.eq_of_near hn hn' hnear
  rcases ha with rfl | rfl
  · exact absurd hnear (hsettled.lower.not_near hx hden hnum hrest hodd hm hne)
  · rcases hsettled.upper with hclear | ⟨rfl, hden', hnum'⟩
    · exact absurd hnear (hclear.not_near hx hden hnum hrest hodd hm hne)
    · rw [hden'] at hden
      rw [hnum'] at hnum
      have hone : x = 1 := by omega
      subst hone
      exact ⟨rfl, hden, hnum⟩

/-- A power of ten in units of half the power of two below it. -/
theorem stepNum_div_stepDen (k : ℤ) :
    (stepNum k / stepDen k : ℚ) = 10 ^ k / 2 ^ (stepExponent k - 1) := by
  rw [zpow_eq_div (by norm_num : (10 : ℚ) ≠ 0) k, zpow_eq_div two_ne_zero (stepExponent k - 1),
    stepNum, stepDen, neg_sub]
  simp only [Nat.pow_eq]
  push_cast
  field_simp

theorem stepDen_pos (k : ℤ) : (0 : ℚ) < stepDen k := by
  unfold stepDen
  simp only [Nat.pow_eq]
  positivity

/-- A power of ten lies between the power of two below it and a little less than the next one. -/
theorem stepExponent_bounds {k : ℤ} (hlow : -44 ≤ k) (hhigh : k ≤ 38) :
    (2 : ℚ) ^ stepExponent k ≤ 10 ^ k ∧ (10 : ℚ) ^ k ≤ 127 / 128 * 2 ^ (stepExponent k + 1) := by
  have hsettled := settled hlow hhigh
  have hstep := stepNum_div_stepDen k
  have hden := stepDen_pos k
  have hpower : (0 : ℚ) < 2 ^ (stepExponent k - 1) := by positivity
  have hone : (2 : ℚ) ^ stepExponent k = 2 * 2 ^ (stepExponent k - 1) := by
    rw [← zpow_one_add₀ two_ne_zero]
    congr 1
    ring
  have htwo : (2 : ℚ) ^ (stepExponent k + 1) = 4 * 2 ^ (stepExponent k - 1) := by
    rw [zpow_add_one₀ two_ne_zero, hone]
    ring
  rw [eq_div_iff hpower.ne', div_mul_eq_mul_div, div_eq_iff hden.ne'] at hstep
  have hbelow : 2 * (stepDen k : ℚ) ≤ stepNum k := by exact_mod_cast hsettled.step_le
  have habove : 32 * (stepNum k : ℚ) ≤ 127 * stepDen k := by exact_mod_cast hsettled.lt_step
  rw [hone, htwo]
  constructor
  · nlinarith
  · nlinarith

end Decimal

end Skycam
