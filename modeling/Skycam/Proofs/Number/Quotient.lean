import Mathlib.Algebra.Order.Floor.Semifield
import Mathlib.Tactic.LinearCombination
import Skycam.Number.Scaled
import Skycam.Proofs.Number.Bits

/-!
# Quotients of single precision

The machine divides mantissas, keeps what is known of the rest of the division in two bits, and
shifts until the mantissa has its length. Shifting the mantissa of a quotient with these two bits is
dividing by twice the divisor (`shiftRightOne_extended`), and what is rounded at the end is a
division to nearest (`roundedMantissa_extended`). So the quotient of two numbers of single precision
is the one that lies nearest to their exact quotient (`div_eq`).
-/

namespace Skycam.Single

open Float.Model (Format UnpackedFloat totalExponent)
open Float.Model.UnpackedFloat (Sign Accuracy ExtendedMantissa accuracyOfFraction shiftToExponent
  shiftToTargetExponent roundWithAccuracy divCore)

/-! ## Divisions with a rest -/

/-- The mantissa of a quotient with the two bits that are kept of the rest. -/
def extended (num den : ℕ) : ExtendedMantissa :=
  .ofMantissaAndAccuracy (num / den) (accuracyOfFraction (num % den) den)

/-- The extended mantissa of a quotient keeps its whole part, whether the rest is half at least, and
whether there is more than that. -/
theorem extended_eq (num : ℕ) {den : ℕ} (hden : 0 < den) :
    extended num den =
      ⟨num / den, decide (den ≤ 2 * (num % den)),
        decide (num % den ≠ 0 ∧ 2 * (num % den) ≠ den)⟩ := by
  unfold extended accuracyOfFraction
  generalize num % den = r
  split
  · next hexact => simp [ExtendedMantissa.ofMantissaAndAccuracy, hexact, hden.ne']
  · next hrest =>
    rcases lt_trichotomy (2 * r) den with hlt | heq | hgt
    · have hbelow : ¬den ≤ 2 * r := hlt.not_ge
      rw [Nat.compare_eq_lt.mpr hlt]
      simp [ExtendedMantissa.ofMantissaAndAccuracy, hrest, hbelow, hlt.ne]
    · rw [Nat.compare_eq_eq.mpr heq]
      simp [ExtendedMantissa.ofMantissaAndAccuracy, heq]
    · rw [Nat.compare_eq_gt.mpr hgt]
      simp [ExtendedMantissa.ofMantissaAndAccuracy, hrest, hgt.le, hgt.ne']

/-- An extended mantissa is rounded as the quotient is. -/
theorem roundedMantissa_extended (num : ℕ) {den : ℕ} (hden : 0 < den) :
    (extended num den).roundedMantissa = divNearest num den := by
  rw [extended_eq num hden]
  unfold divNearest
  generalize num / den = q
  generalize num % den = r
  dsimp only
  rcases lt_trichotomy (2 * r) den with hlt | heq | hgt
  · have hbelow : ¬den ≤ 2 * r := hlt.not_ge
    rw [if_pos hlt, decide_eq_false hbelow]
    by_cases hexact : r = 0
    · simp [hexact, ExtendedMantissa.roundedMantissa, ExtendedMantissa.accuracy,
        Accuracy.roundToNearestEven]
    · simp [hexact, hlt.ne, ExtendedMantissa.roundedMantissa, ExtendedMantissa.accuracy,
        Accuracy.roundToNearestEven]
  · simp [heq, ExtendedMantissa.roundedMantissa, ExtendedMantissa.accuracy,
      Accuracy.roundToNearestEven]
  · have hrest : r ≠ 0 := by omega
    simp [hrest, hgt.le, hgt.ne', hgt, hgt.le.not_gt, ExtendedMantissa.roundedMantissa,
      ExtendedMantissa.accuracy, Accuracy.roundToNearestEven]

/-- One shift is a division by twice the divisor. -/
theorem shiftRightOne_extended (num : ℕ) {den : ℕ} (hden : 0 < den) :
    (extended num den).shiftRightOne = extended num (2 * den) := by
  have hrest : num % (2 * den) = num % den + den * (num / den % 2) := by
    rw [Nat.mul_comm 2 den, Nat.mod_mul]
  have hquotient : num / (2 * den) = num / den / 2 := by
    rw [Nat.mul_comm 2 den, Nat.div_div_eq_div_mul]
  have hlt : num % den < den := Nat.mod_lt _ hden
  rw [extended_eq num hden, extended_eq num (Nat.mul_pos two_pos hden), hrest, hquotient,
    ExtendedMantissa.shiftRightOne]
  generalize num / den = q
  generalize num % den = r at hlt
  -- the second bit says whether there is any rest
  have hsticky : den ≤ 2 * r ∨ r ≠ 0 ∧ 2 * r ≠ den ↔ r ≠ 0 := by omega
  rcases Nat.mod_two_eq_zero_or_one q with heven | hodd
  · have hround : ¬2 * den ≤ 2 * r := by omega
    have hhalf : r ≠ 0 ∧ 2 * r ≠ 2 * den ↔ r ≠ 0 := by omega
    simp only [heven, mul_zero, add_zero, hround, hhalf, ← Bool.decide_or, hsticky]
    rfl
  · have hround : 2 * den ≤ 2 * (r + den * 1) := by omega
    have hhalf : r + den * 1 ≠ 0 ∧ 2 * (r + den * 1) ≠ 2 * den ↔ r ≠ 0 := by omega
    simp only [hodd, hround, hhalf, ← Bool.decide_or, hsticky]
    rfl

/-- To shift an extended mantissa is to divide its quotient by a power of two. -/
theorem shiftRight_extended (num : ℕ) {den : ℕ} (hden : 0 < den) (k : ℕ) :
    extended num den >>> k = extended num (2 ^ k * den) := by
  show Nat.repeat ExtendedMantissa.shiftRightOne k (extended num den) = _
  induction k with
  | zero => rw [pow_zero, one_mul, Nat.repeat]
  | succ k ih =>
    rw [Nat.repeat, ih, shiftRightOne_extended num (Nat.mul_pos (Nat.two_pow_pos k) hden)]
    congr 1
    ring

/-! ## Rounding -/

theorem targetExponent_eq (total : ℤ) :
    Format.binary32.targetExponent total = max (total - 24) (-149) := rfl

theorem extended_one (mantissa : ℕ) :
    ExtendedMantissa.ofMantissaAndAccuracy mantissa .exact = extended mantissa 1 := by
  simp [extended, accuracyOfFraction, Nat.mod_one]

theorem extended_mantissa (num : ℕ) {den : ℕ} (hden : 0 < den) :
    (extended num den).mantissa = num / den := by
  rw [extended_eq num hden]

/-- A mantissa that rounding made one power of two too long is shifted once more. -/
theorem shift_carry {mantissa : ℕ} {exponent : ℤ} (hmantissa : mantissa ≤ 2 ^ 24)
    (hexponent : -149 ≤ exponent) :
    shiftToTargetExponent Format.binary32 mantissa exponent .exact =
      if mantissa = 2 ^ 24 then (extended (2 ^ 24) 2, exponent + 1)
      else (extended mantissa 1, exponent) := by
  unfold shiftToTargetExponent shiftToExponent
  dsimp only
  rw [targetExponent_eq, totalExponent, extended_one, shiftRight_extended mantissa one_pos]
  split
  · next hcarry =>
    have hlog : mantissa.log2 = 24 := by
      rw [hcarry, Nat.log2_two_pow]
    have hone : (max ((mantissa.log2 : ℤ) + 1 + exponent - 24) (-149) - exponent).toNat = 1 := by
      omega
    rw [hone, hcarry]
    rfl
  · next hshort =>
    have hlog : mantissa.log2 < 24 := by
      by_cases hzero : mantissa = 0
      · simp [hzero]
      · exact (Nat.log2_lt hzero).mpr (by omega)
    have hnone : (max ((mantissa.log2 : ℤ) + 1 + exponent - 24) (-149) - exponent).toNat = 0 := by
      omega
    rw [hnone, pow_zero, one_mul, Nat.cast_zero, add_zero]

theorem toNat_pack_zero (s : Sign) : (pack (.zero s)).toNat = s.toBitVec.toNat * signWeight := by
  have hzero : (word s 0#8 0#23).toNat = s.toBitVec.toNat * signWeight := by
    rw [toNat_word]
    simp [signWeight]
  exact hzero

/-- The bits of a rounded mantissa; one that is too long carries into the exponent field. -/
theorem toNat_pack_carry (s : Sign) {mantissa : ℕ} {exponent : ℤ} (hmantissa : mantissa ≤ 2 ^ 24)
    (hexponent : -149 ≤ exponent) (hfull : exponent = -149 ∨ 2 ^ 23 ≤ mantissa) :
    let shifted := shiftToTargetExponent Format.binary32 mantissa exponent .exact
    (pack (if h : shifted.1.mantissa = 0 then .zero s
      else .finite s shifted.1.mantissa shifted.2 (Nat.pos_of_ne_zero h))).toNat =
      s.toBitVec.toNat * signWeight + sizeBits ⟨mantissa, exponent⟩ := by
  dsimp only
  rw [shift_carry hmantissa hexponent]
  by_cases hcarry : mantissa = 2 ^ 24
  · have hhalf : (extended (2 ^ 24) 2).mantissa = 2 ^ 23 := extended_mantissa _ two_pos
    simp only [hcarry, if_true, hhalf]
    rw [dif_neg (by norm_num), toNat_pack_finite s _ (by norm_num) (by omega) (.inr le_rfl),
      ← sizeBits_carry hexponent, sizeBits]
  · have hwhole : (extended mantissa 1).mantissa = mantissa := by
      rw [extended_mantissa _ one_pos, Nat.div_one]
    simp only [hcarry, if_false, hwhole]
    split
    · next hzero =>
      have hlast : exponent = -149 := hfull.resolve_right (by omega)
      rw [toNat_pack_zero, hzero, hlast]
      simp [sizeBits]
    · exact toNat_pack_finite s _ (by omega) hexponent hfull

/-- What is rounded is the number of the format nearest to the quotient. -/
theorem toNat_pack_round (s : Sign) {num den : ℕ} (hden : 0 < den) {exponent : ℤ} {n d : ℕ}
    (hn : 0 < n) (hd : 0 < d) (hvalue : (n / d : ℚ) = num / den * 2 ^ exponent)
    (htarget : Format.binary32.targetExponent (totalExponent (num / den) exponent) =
      (BinaryFormat.single.nearest n d).exponent)
    (hle : exponent ≤ (BinaryFormat.single.nearest n d).exponent) :
    (pack (roundWithAccuracy Format.binary32 s (num / den) exponent
      (accuracyOfFraction (num % den) den))).toNat =
      s.toBitVec.toNat * signWeight + sizeBits (BinaryFormat.single.nearest n d) := by
  obtain ⟨hmantissa, hmin, hfull⟩ :=
    BinaryFormat.nearest_rounded (f := BinaryFormat.single) hn hd (by decide)
  have hrounded := BinaryFormat.nearest_mantissa (f := BinaryFormat.single) n d
  generalize BinaryFormat.single.nearest n d = b at *
  obtain ⟨k, hk⟩ : ∃ k : ℕ, b.exponent - exponent = k := ⟨(b.exponent - exponent).toNat, by omega⟩
  have hfirst : shiftToTargetExponent Format.binary32 (num / den) exponent
      (accuracyOfFraction (num % den) den) = (extended num (2 ^ k * den), b.exponent) := by
    unfold shiftToTargetExponent shiftToExponent
    dsimp only
    rw [htarget, hk, Int.toNat_natCast]
    refine Prod.ext (shiftRight_extended num hden k) ?_
    show exponent + (k : ℤ) = b.exponent
    omega
  have hmantissa_eq : divNearest num (2 ^ k * den) = b.mantissa := by
    rw [hrounded]
    refine divNearest_congr (by positivity) (by positivity) ?_
    have hcross : (num : ℚ) * d * 2 ^ exponent = n * den := by
      field_simp at hvalue
      linarith
    have hpower : (2 : ℚ) ^ b.exponent.toNat =
        2 ^ exponent * 2 ^ k * 2 ^ (-b.exponent).toNat := by
      rw [← zpow_natCast, ← zpow_natCast, ← zpow_natCast, ← zpow_add₀ two_ne_zero,
        ← zpow_add₀ two_ne_zero]
      congr 1
      omega
    have hmul : (num : ℚ) * (d * 2 ^ b.exponent.toNat) =
        n * 2 ^ (-b.exponent).toNat * (2 ^ k * den) := by
      rw [hpower]
      linear_combination 2 ^ k * 2 ^ (-b.exponent).toNat * hcross
    exact_mod_cast hmul
  unfold roundWithAccuracy
  rw [hfirst]
  dsimp only
  rw [roundedMantissa_extended num (by positivity), hmantissa_eq]
  exact toNat_pack_carry s hmantissa hmin hfull

/-! ## Division -/

/-- The logarithm of a quotient is within one of the difference of the bit lengths. -/
theorem floorLog2_bounds (num den : ℕ) :
    floorLog2 num den ≤ num.log2 - den.log2 ∧
      (num.log2 : ℤ) - den.log2 - 1 ≤ floorLog2 num den := by
  unfold floorLog2
  dsimp only
  split
  · omega
  · omega

/-- The logarithm of a quotient of at least one is that of its integer part. -/
theorem log_div_of_le {num den : ℕ} (hden : 0 < den) (h : den ≤ num) :
    Int.log 2 (num / den : ℚ) = (num / den).log2 := by
  have hone : (1 : ℚ) ≤ num / den := by
    rw [one_le_div (by exact_mod_cast hden)]
    exact_mod_cast h
  rw [Int.log_of_one_le_right 2 hone, Nat.floor_div_eq_div, Nat.log2_eq_log_two]

/-- The machine divides sizes to the nearest number. -/
theorem toNat_pack_div (s : Sign) {a b : Binary} (ha : 0 < a.mantissa) (hb : 0 < b.mantissa) :
    let core := divCore Format.binary32 a.mantissa a.exponent b.mantissa b.exponent
    (pack (roundWithAccuracy Format.binary32 s core.1 core.2.1 core.2.2)).toNat =
      s.toBitVec.toNat * signWeight + sizeBits (BinaryFormat.single.div a b) := by
  have hn : 0 < a.num * b.den := Nat.mul_pos (Binary.num_pos ha) b.den_pos
  have hd : 0 < a.den * b.num := Nat.mul_pos a.den_pos (Binary.num_pos hb)
  have hratio : (0 : ℚ) < a.mantissa / b.mantissa := by positivity
  have hquotient : ((a.num * b.den : ℕ) / (a.den * b.num : ℕ) : ℚ) =
      a.mantissa / b.mantissa * 2 ^ (a.exponent - b.exponent) := by
    rw [Binary.div_toRat, Binary.toRat, Binary.toRat, zpow_sub₀ two_ne_zero]
    field_simp
  have hlog : Int.log 2 ((a.num * b.den : ℕ) / (a.den * b.num : ℕ) : ℚ) =
      floorLog2 a.mantissa b.mantissa + (a.exponent - b.exponent) := by
    rw [hquotient, floorLog2_eq_log ha hb]
    exact log_mul_zpow one_lt_two hratio _
  have hexponent : (BinaryFormat.single.div a b).exponent =
      max (floorLog2 a.mantissa b.mantissa + (a.exponent - b.exponent) + 1 - 24) (-149) := by
    rw [← hlog]
    exact BinaryFormat.nearest_exponent hn hd
  obtain ⟨hhigh, hlow⟩ := floorLog2_bounds a.mantissa b.mantissa
  dsimp only [divCore]
  rw [targetExponent_eq, totalExponent, totalExponent]
  -- the exponent of the integer quotient: small enough for all bits that are kept
  generalize htarget : min (a.exponent - b.exponent) _ = target
  obtain ⟨k, hk⟩ : ∃ k : ℕ, a.exponent - b.exponent - target = k :=
    ⟨(a.exponent - b.exponent - target).toNat, by omega⟩
  rw [hk, Int.toNat_natCast, Nat.shiftLeft_eq]
  have hscaled : ((a.mantissa * 2 ^ k : ℕ) / b.mantissa * 2 ^ target : ℚ) =
      a.mantissa / b.mantissa * 2 ^ (a.exponent - b.exponent) := by
    have hsplit : a.exponent - b.exponent = k + target := by omega
    rw [hsplit, zpow_add₀ two_ne_zero, zpow_natCast]
    push_cast
    ring
  have hlogScaled : Int.log 2 ((a.mantissa * 2 ^ k : ℕ) / b.mantissa : ℚ) + target =
      floorLog2 a.mantissa b.mantissa + (a.exponent - b.exponent) := by
    rw [← log_mul_zpow one_lt_two (by positivity), Nat.cast_ofNat, hscaled, ← hquotient, hlog]
  refine toNat_pack_round s hb hn hd (hquotient.trans hscaled.symm) ?_ ?_
  · rw [targetExponent_eq, totalExponent]
    refine Eq.trans ?_ hexponent.symm
    by_cases hwhole : b.mantissa ≤ a.mantissa * 2 ^ k
    · rw [log_div_of_le hb hwhole] at hlogScaled
      omega
    · -- nothing is left of the quotient: it is below half the smallest number
      have hzero : a.mantissa * 2 ^ k / b.mantissa = 0 := Nat.div_eq_of_lt (by omega)
      have hbelow : ((a.mantissa * 2 ^ k : ℕ) / b.mantissa : ℚ) < ((2 : ℕ) : ℚ) ^ (0 : ℤ) := by
        rw [zpow_zero, div_lt_one (by positivity)]
        exact_mod_cast Nat.not_le.mp hwhole
      have hneg := (Int.lt_zpow_iff_log_lt one_lt_two (by positivity)).mp hbelow
      rw [hzero, Nat.log2_zero]
      omega
  · refine le_of_le_of_eq ?_ hexponent.symm
    omega

/-- A quotient is negative if just one of its parts is. -/
theorem signOf_div (s t : Bool) : signOf s / signOf t = signOf (s != t) := by
  cases s with
  | false =>
    cases t with
    | false => rfl
    | true => rfl
  | true =>
    cases t with
    | false => rfl
    | true => rfl

theorem toBits_div (x y : Float32) :
    (x / y).toBits.toNat =
      (pack (.div Format.binary32 (view x).toUnpacked (view y).toUnpacked)).toNat := by
  rw [← unpack_eq, ← unpack_eq]
  rfl

section Div

variable {x y : Float32} {s t : Bool} {a b : Binary}

/-- The quotient of two numbers is the number nearest to their exact quotient. -/
theorem div_eq (hx : view x = .finite s a) (hy : view y = .finite t b) (ha : 0 < a.mantissa)
    (hb : 0 < b.mantissa) : x / y = signed (s != t) (ofBinary (BinaryFormat.single.div a b)) := by
  apply eq_of_toBits
  rw [toBits_div, hx, hy, toBits_signed, ← toNat_signOf, ← signOf_div]
  simp only [View.toUnpacked, ha, hb, dif_pos]
  exact toNat_pack_div (signOf s / signOf t) ha hb

/-- Zero divided by a number that is not is zero, with the sign of the quotient. -/
theorem zero_div_eq (hx : view x = .finite s a) (hy : view y = .finite t b) (ha : a.mantissa = 0)
    (hb : 0 < b.mantissa) : x / y = signed (s != t) (ofBinary ⟨0, -149⟩) := by
  have hnone : sizeBits ⟨0, -149⟩ = 0 := by simp [sizeBits]
  apply eq_of_toBits
  rw [toBits_div, hx, hy, toBits_signed, ← toNat_signOf, ← signOf_div, hnone, add_zero]
  simp only [View.toUnpacked, ha, hb, lt_irrefl, dif_pos, dif_neg, not_false_eq_true]
  exact toNat_pack_zero (signOf s / signOf t)

end Div

end Skycam.Single
