import Skycam.Proofs.Number.Bits
import Skycam.Proofs.Number.Nearest

/-!
# Shortest decimals are nearest decimals

A decimal reads back as a number exactly when the number claims its value
(`Single.ofDecimal_eq_iff`). So of two decimals with the same last place the nearer one reads back
if any does, and with nine digits it always does: the shortest decimal of a number is a multiple of
a power of ten that lies nearest to the number (`Single.shortest_spec`).
-/

namespace Skycam

/-- A decimal is rounded to zero or as the quotient that it is. -/
theorem Decimal.eq_of_nearest_eq_some {f : BinaryFormat} {d : Decimal} {b : Binary}
    (h : d.nearest f = some b) : b = ⟨0, f.minExponent⟩ ∨ b = f.nearest d.num d.den := by
  unfold Decimal.nearest at h
  dsimp only at h
  split at h
  · exact .inl (Option.some.inj h).symm
  split at h
  · cases h
  split at h
  · cases h
  · exact .inr (Option.some.inj h).symm

namespace Single

/-- A number whose neighbours are equally far. -/
abbrev Inner (b : Binary) : Prop := b.Inner BinaryFormat.single

/-- The bits tell a rounded number from one whose neighbours are equally far. -/
theorem eq_of_sizeBits {r b : Binary} (hr : r.Rounded BinaryFormat.single) (hb : Inner b)
    (h : sizeBits r = sizeBits b) : r = b := by
  obtain ⟨m, e⟩ := r
  obtain ⟨n, e'⟩ := b
  have hmantissa : m ≤ 2 ^ 24 := hr.mantissa_le
  have hexponent : -149 ≤ e := hr.le_exponent
  have hfull : e = -149 ∨ 2 ^ 23 ≤ m := hr.full
  have hmantissa' : n < 2 ^ 24 := hb.fits.mantissa_lt
  have hexponent' : -149 ≤ e' := hb.fits.le_exponent
  have hmax : e' ≤ 104 := hb.fits.exponent_le
  have hinner : e' = -149 ∨ 2 ^ 23 < n := hb.inner
  unfold sizeBits infinityBits topField fieldWeight at h
  dsimp only at h
  have heq : e = e' ∧ m = n := by omega
  rw [heq.1, heq.2]

theorem sizeBits_lt {b : Binary} (hb : Inner b) : 0 < sizeBits b ∧ sizeBits b < infinityBits := by
  have hmantissa : b.mantissa < 2 ^ 24 := hb.fits.mantissa_lt
  have hmax : b.exponent ≤ 104 := hb.fits.exponent_le
  have hpos := hb.mantissa_pos
  unfold sizeBits infinityBits topField fieldWeight
  omega

theorem toBits_infinity : infinity.toBits.toNat = infinityBits :=
  toBits_ofBits (by decide) (by unfold IsNumber; decide)

/-- A value has about as many places as the number that claims it. -/
theorem log_of_claims {b : Binary} {x : ℚ} (hb : 0 < b.mantissa) (h : b.Claims x) :
    Int.log 10 b.toRat - 1 ≤ Int.log 10 x ∧ Int.log 10 x ≤ Int.log 10 b.toRat + 1 := by
  obtain ⟨hlow, hhigh⟩ := h.bounds hb
  have hpos : 0 < b.toRat := b.unit_pos.trans_le (Binary.unit_le_toRat hb)
  have hdown := log_mul_zpow (b := 10) (by norm_num) hpos (-1)
  have hup := log_mul_zpow (b := 10) (by norm_num) hpos 1
  have hleast : b.toRat * ((10 : ℕ) : ℚ) ^ (-1 : ℤ) ≤ x := by
    norm_num
    linarith
  have hlargest : x ≤ b.toRat * ((10 : ℕ) : ℚ) ^ (1 : ℤ) := by
    norm_num
    linarith
  have hmono := Int.log_mono_right (b := 10) (by positivity) hleast
  have hmono' := Int.log_mono_right (b := 10) (by linarith) hlargest
  omega

/-- A decimal reads back as a number exactly when the number claims its value. -/
theorem ofDecimal_eq_iff {d : Decimal} {b : Binary} (hd : 0 < d.coefficient) (hb : Inner b) :
    ofDecimal d = ofBinary b ↔ b.Claims d.toRat := by
  obtain ⟨hpos, hlt⟩ := sizeBits_lt hb
  have hnum := Decimal.num_pos hd
  constructor
  · intro h
    have hbits : (ofDecimal d).toBits.toNat = sizeBits b := by rw [h, toBits_ofBinary]
    unfold ofDecimal at hbits
    split at hbits
    · next r hr =>
      rw [toBits_ofBinary] at hbits
      rcases Decimal.eq_of_nearest_eq_some hr with rfl | rfl
      · have hzero : sizeBits ⟨0, BinaryFormat.single.minExponent⟩ = 0 := by decide
        omega
      · have hrounded := BinaryFormat.nearest_rounded (f := BinaryFormat.single) hnum d.den_pos
          (by decide)
        rw [← eq_of_sizeBits hrounded hb hbits, ← Decimal.num_div_den]
        exact BinaryFormat.claims_nearest _ d.den_pos
    · rw [toBits_infinity] at hbits
      omega
  · intro h
    have hnearest : BinaryFormat.single.nearest d.num d.den = b :=
      BinaryFormat.nearest_eq_of_claims hb d.den_pos (by rwa [Decimal.num_div_den])
    obtain ⟨hlow, hhigh⟩ := Fits.log_toRat hb.fits hb.mantissa_pos
    obtain ⟨hleast, hlargest⟩ := log_of_claims hb.mantissa_pos h
    have hplaces := Decimal.places_eq_log hd
    have hnear : ¬(digitCount d.coefficient + d.exponent : ℤ) < -400 := by omega
    have hfar : ¬(400 : ℤ) < digitCount d.coefficient + d.exponent := by omega
    simp [ofDecimal, Decimal.nearest, hd.ne', hnear, hfar, hnearest,
      BinaryFormat.overflows_eq_false hb.fits]

end Single

/-! ## Neighbours -/

namespace Decimal

/-- A value in steps of a decimal grid. -/
theorem div_div_zpow (num den : ℕ) (k : ℤ) :
    ((num * 10 ^ (-k).toNat : ℕ) / (den * 10 ^ k.toNat : ℕ) : ℚ) = num / den / 10 ^ k := by
  rw [zpow_eq_div (by norm_num : (10 : ℚ) ≠ 0) k]
  push_cast
  field_simp

/-- A distance in steps of a decimal grid. -/
theorem abs_mul_zpow_sub (n : ℕ) (x : ℚ) (k : ℤ) :
    |n * (10 : ℚ) ^ k - x| = |n - x / 10 ^ k| * 10 ^ k := by
  have hstep : (0 : ℚ) < 10 ^ k := by positivity
  rw [← abs_of_pos hstep, ← abs_mul, abs_of_pos hstep, sub_mul, div_mul_cancel₀ _ hstep.ne']

/-- The neighbours of a value on a decimal grid: the first is at most half a step away and not
farther than the second. -/
theorem neighbours_spec (tie : Tie) (num : ℕ) {den : ℕ} (hden : 0 < den) (k : ℤ) :
    ∃ near far : ℕ, neighbours tie num den k = [⟨near, k⟩, ⟨far, k⟩] ∧
      |near * (10 : ℚ) ^ k - num / den| ≤ 10 ^ k / 2 ∧
      |near * (10 : ℚ) ^ k - num / den| ≤ |far * (10 : ℚ) ^ k - num / den| ∧
      ⌊(num / den / 10 ^ k : ℚ)⌋₊ ≤ near ∧ near ≤ ⌊(num / den / 10 ^ k : ℚ)⌋₊ + 1 ∧
      ⌊(num / den / 10 ^ k : ℚ)⌋₊ ≤ far := by
  have hstep : (0 : ℚ) < 10 ^ k := by positivity
  simp only [abs_mul_zpow_sub, ← div_div_zpow, Nat.floor_div_eq_div]
  unfold neighbours
  simp only [Nat.pow_eq]
  generalize num * 10 ^ (-k).toNat = n
  generalize hd : den * 10 ^ k.toNat = d
  have hpos : 0 < d := hd ▸ by positivity
  have hpos' : (0 : ℚ) < d := by exact_mod_cast hpos
  have hdivision : (n / d : ℚ) = (n / d : ℕ) + (n % d : ℕ) / d := by
    rw [div_eq_iff hpos'.ne', add_mul, div_mul_cancel₀ _ hpos'.ne']
    exact_mod_cast (Nat.div_add_mod' n d).symm
  have hrest : ((n % d : ℕ) : ℚ) / d < 1 := by
    rw [div_lt_one hpos']
    exact_mod_cast Nat.mod_lt n hpos
  have hnonneg : (0 : ℚ) ≤ (n % d : ℕ) / d := by positivity
  have hbelow : |((n / d : ℕ) : ℚ) - n / d| = (n % d : ℕ) / d := by
    rw [hdivision, sub_add_cancel_left, abs_neg, abs_of_nonneg hnonneg]
  have habove : |((n / d + 1 : ℕ) : ℚ) - n / d| = 1 - (n % d : ℕ) / d := by
    rw [hdivision, Nat.cast_add_one, add_sub_add_left_eq_sub, abs_of_nonneg (by linarith)]
  split
  · next hnear =>
    have hhalf : ((n % d : ℕ) : ℚ) / d ≤ 1 / 2 := by
      rw [div_le_div_iff₀ hpos' two_pos]
      exact_mod_cast (by omega : n % d * 2 ≤ 1 * d)
    refine ⟨n / d, n / d + 1, rfl, ?_, ?_, le_rfl, by omega, by omega⟩
    · rw [hbelow]
      nlinarith
    · rw [hbelow, habove]
      gcongr
      linarith
  · next hfar =>
    have hhalf : (1 : ℚ) / 2 ≤ (n % d : ℕ) / d := by
      rw [div_le_div_iff₀ two_pos hpos']
      exact_mod_cast (by omega : 1 * d ≤ n % d * 2)
    refine ⟨n / d + 1, n / d, rfl, ?_, ?_, by omega, le_rfl, le_rfl⟩
    · rw [habove]
      nlinarith
    · rw [hbelow, habove]
      gcongr
      linarith

end Decimal

namespace Single

/-- The candidates with a given number of digits: the nearer one reads back if any does. -/
theorem find?_neighbours (tie : Decimal.Tie) {b : Binary} (hb : Inner b) {j : ℕ} (hj : j < 9) :
    ∃ n : ℕ, 0 < n ∧ n ≤ 10 ^ 9 ∧
      |n * (10 : ℚ) ^ (Int.log 10 b.toRat - j) - b.toRat| ≤ 10 ^ (Int.log 10 b.toRat - j) / 2 ∧
      (Decimal.neighbours tie b.num b.den (Int.log 10 b.toRat - j)).find?
          (fun d => decide (ofDecimal d = ofBinary b)) =
        if ofDecimal ⟨n, Int.log 10 b.toRat - j⟩ = ofBinary b then
          some ⟨n, Int.log 10 b.toRat - j⟩ else none := by
  have hpos : 0 < b.toRat := b.unit_pos.trans_le (Binary.unit_le_toRat hb.mantissa_pos)
  have hlow := Int.zpow_log_le_self (b := 10) (by norm_num) hpos
  have hhigh := Int.lt_zpow_succ_log_self (b := 10) (by norm_num) b.toRat
  generalize Int.log 10 b.toRat = lead at *
  obtain ⟨near, far, hneighbours, hhalf, hle, hfloor, hfloor', hfar⟩ :=
    Decimal.neighbours_spec tie b.num b.den_pos (lead - j)
  rw [Binary.num_div_den] at *
  have hstep : (0 : ℚ) < 10 ^ (lead - j) := by positivity
  have hone : 1 ≤ ⌊b.toRat / 10 ^ (lead - j)⌋₊ := by
    refine Nat.le_floor ?_
    rw [Nat.cast_one, one_le_div hstep]
    calc (10 : ℚ) ^ (lead - j) ≤ 10 ^ lead := zpow_le_zpow_right₀ (by norm_num) (by omega)
      _ ≤ b.toRat := by exact_mod_cast hlow
  have hmany : ⌊b.toRat / 10 ^ (lead - j)⌋₊ < 10 ^ 9 := by
    rw [Nat.floor_lt (by positivity), div_lt_iff₀ hstep]
    calc b.toRat < 10 ^ (lead + 1) := by exact_mod_cast hhigh
      _ ≤ 10 ^ (9 + (lead - j)) := zpow_le_zpow_right₀ (by norm_num) (by omega)
      _ = (10 ^ 9 : ℕ) * 10 ^ (lead - j) := by
        rw [zpow_add₀ (by norm_num)]
        norm_num
  refine ⟨near, by omega, by omega, hhalf, ?_⟩
  have hnear := ofDecimal_eq_iff (d := ⟨near, lead - j⟩) (show 0 < near by omega) hb
  have hother := ofDecimal_eq_iff (d := ⟨far, lead - j⟩) (show 0 < far by omega) hb
  rw [hneighbours]
  -- the farther candidate reads back only if the nearer one does
  by_cases haccept : ofDecimal ⟨near, lead - j⟩ = ofBinary b
  · simp [haccept]
  · have hreject : ofDecimal ⟨far, lead - j⟩ ≠ ofBinary b := by
      intro hfar
      exact haccept (hnear.mpr ((hother.mp hfar).of_abs_le hle))
    simp [haccept, hreject]

/-- With nine digits the nearer candidate reads back. -/
theorem claims_of_nine_digits {b : Binary} (hb : Inner b) {x : ℚ}
    (h : |x - b.toRat| ≤ 10 ^ (Int.log 10 b.toRat - 8) / 2) : b.Claims x := by
  have hpos : 0 < b.toRat := b.unit_pos.trans_le (Binary.unit_le_toRat hb.mantissa_pos)
  have hunit := b.unit_pos
  have hlow : (10 : ℚ) ^ Int.log 10 b.toRat ≤ b.mantissa * b.unit := by
    exact_mod_cast Int.zpow_log_le_self (b := 10) (by norm_num) hpos
  have hmantissa : (b.mantissa : ℚ) ≤ 2 ^ 24 := by exact_mod_cast hb.fits.mantissa_lt.le
  have hfine : (10 : ℚ) ^ (Int.log 10 b.toRat - 8) < b.unit := by
    rw [zpow_sub₀ (by norm_num), div_lt_iff₀ (by positivity)]
    calc (10 : ℚ) ^ Int.log 10 b.toRat ≤ b.mantissa * b.unit := hlow
      _ ≤ 2 ^ 24 * b.unit := by gcongr
      _ < b.unit * 10 ^ (8 : ℤ) := by
        norm_num
        linarith
  left
  linarith

/-- The shortest decimal of a number whose neighbours are equally far is a multiple of a power of
ten, at most half a step away from the number; the number claims its value. -/
theorem shortest_spec (tie : Decimal.Tie) {b : Binary} (hb : Inner b) :
    ∃ (n : ℕ) (k : ℤ), shortest tie b = ⟨n, k⟩ ∧ 0 < n ∧ n ≤ 10 ^ 9 ∧ -53 ≤ k ∧ k ≤ 38 ∧
      |n * (10 : ℚ) ^ k - b.toRat| ≤ 10 ^ k / 2 ∧ b.Claims (n * 10 ^ k) := by
  have hnum := Binary.num_pos hb.mantissa_pos
  have hlog : floorLog10 b.num b.den = Int.log 10 b.toRat := by
    rw [floorLog10_eq_log hnum b.den_pos, Binary.num_div_den]
  obtain ⟨hleast, hlargest⟩ := Fits.log_toRat hb.fits hb.mantissa_pos
  unfold shortest Decimal.shortest
  rw [if_neg hb.mantissa_pos.ne']
  simp only [List.find?_flatMap, hlog]
  cases hfind : List.findSome? _ (List.range 9) with
  | none =>
    -- the candidates with nine digits would have been taken
    obtain ⟨n, hn, -, hhalf, hnone⟩ := find?_neighbours tie hb (by norm_num : 8 < 9)
    have hreject := List.findSome?_eq_none_iff.mp hfind 8 (by simp)
    have haccept := (ofDecimal_eq_iff (d := ⟨n, Int.log 10 b.toRat - (8 : ℕ)⟩) hn hb).mpr
      (claims_of_nine_digits hb hhalf)
    rw [hnone, if_pos haccept] at hreject
    cases hreject
  | some d =>
    obtain ⟨j, hj, hd⟩ := List.exists_of_findSome?_eq_some hfind
    have hj' : j < 9 := List.mem_range.mp hj
    obtain ⟨n, hn, hdigits, hhalf, hfirst⟩ := find?_neighbours tie hb hj'
    rw [hfirst] at hd
    split at hd
    · next haccept =>
      obtain rfl := Option.some.inj hd
      exact ⟨n, _, rfl, hn, hdigits, by omega, by omega, hhalf,
        (ofDecimal_eq_iff (d := ⟨n, _⟩) hn hb).mp haccept⟩
    · cases hd

end Single

end Skycam
