import Skycam.Proofs.Number.Literal
import Skycam.Proofs.Number.Midpoint
import Skycam.Proofs.Number.Scaled
import Skycam.Proofs.Number.Shortest

/-!
# JSON numbers are read again

What is written of a finite number is its shortest decimal, and reading that by way of double
precision gives the number back (`Single.literalSingle?_json`). The value that is rounded in the end
is not that of the decimal but off by up to three roundings at double precision. That does not
matter as long as no midpoint lies between the two. A decimal on a grid finer than the numbers lies
at most half a step away from its number, which is far from both midpoints; one on a coarser grid
comes near to a midpoint only when it meets it, but for one decimal, which is looked at by itself,
as are the powers of two.
-/

namespace Skycam.Single

section Gap

variable {b : Binary}

theorem toRat_le_unit (hb : Inner b) : b.toRat ≤ (2 ^ 24 - 1) * b.unit := by
  have hm : (b.mantissa : ℚ) + 1 ≤ 2 ^ 24 := by exact_mod_cast hb.fits.mantissa_lt
  have hunit := b.unit_pos
  rw [Binary.toRat_eq]
  gcongr
  linarith

/-- On a fine grid the decimal stays away from the midpoints. -/
theorem gap_of_fine (hb : Inner b) {v : ℚ} {k : ℤ} (hfine : (10 : ℚ) ^ k ≤ 127 / 128 * b.unit)
    (hhalf : |v - b.toRat| ≤ 10 ^ k / 2) : |v - b.toRat| + 3 * (v / 2 ^ 53) < b.unit / 2 := by
  have hunit := b.unit_pos
  have hsize := toRat_le_unit hb
  have hhigh := (abs_le.mp hhalf).2
  have hsmall : 3 * (v / 2 ^ 53) ≤ b.unit / 512 := by
    rw [← mul_div_assoc, div_le_div_iff₀ (by norm_num) (by norm_num)]
    nlinarith
  linarith

/-- The odd multiples of half a last place on either side of a number are midpoints. -/
theorem exists_midpoint (hb : Inner b) {v : ℚ} (h : |v - b.toRat| ≤ b.unit / 2) :
    ∃ m : ℕ, m % 2 = 1 ∧ m < 2 ^ 25 ∧ (m = 2 * b.mantissa + 1 ∨ m + 1 = 2 * b.mantissa) ∧
      |v - m * (b.unit / 2)| = b.unit / 2 - |v - b.toRat| := by
  have hpos := hb.mantissa_pos
  have hlt : b.mantissa < 2 ^ 24 := hb.fits.mantissa_lt
  obtain ⟨hlow, hhigh⟩ := abs_le.mp h
  rw [Binary.toRat_eq] at *
  rcases le_total 0 (v - b.mantissa * b.unit) with hright | hleft
  · refine ⟨2 * b.mantissa + 1, by omega, by omega, .inl rfl, ?_⟩
    rw [abs_of_nonneg hright, abs_of_nonpos]
    · push_cast
      ring
    · push_cast
      linarith
  · refine ⟨2 * b.mantissa - 1, by omega, by omega, .inr (by omega), ?_⟩
    have hcast : ((2 * b.mantissa - 1 : ℕ) : ℚ) = 2 * b.mantissa - 1 := by
      rw [Nat.cast_sub (by omega)]
      push_cast
      ring
    rw [abs_of_nonpos hleft, abs_of_nonneg, hcast]
    · ring
    · rw [hcast]
      linarith

section Coarse

variable {n j : ℕ} {k : ℤ}

/-- A decimal on a coarse grid, in halves of a last place. -/
theorem stepNum_mul_half (hj : Decimal.stepExponent k = j + b.exponent) (n : ℕ) :
    (Decimal.stepNum k : ℚ) * (n * 2 ^ j : ℕ) * (b.unit / 2) =
      Decimal.stepDen k * (n * 10 ^ k) := by
  have hden := Decimal.stepDen_pos k
  have hpower : (2 : ℚ) ^ (Decimal.stepExponent k - 1) = 2 ^ j * (b.unit / 2) := by
    rw [zpow_sub_one₀ two_ne_zero, hj, zpow_add₀ two_ne_zero, zpow_natCast, Binary.unit]
    ring
  have hunit := b.unit_pos
  have hstep := Decimal.stepNum_div_stepDen k
  rw [hpower, div_eq_div_iff hden.ne' (by positivity)] at hstep
  push_cast
  linear_combination n * hstep

/-- How far a decimal on a coarse grid is from a multiple of half a last place. -/
theorem abs_sub_mul_half (hj : Decimal.stepExponent k = j + b.exponent) (n m : ℕ) :
    |(Decimal.stepNum k : ℚ) * (n * 2 ^ j : ℕ) - Decimal.stepDen k * m| * (b.unit / 2) =
      Decimal.stepDen k * |n * 10 ^ k - m * (b.unit / 2)| := by
  have hhalf := half_pos b.unit_pos
  have hden := Decimal.stepDen_pos k
  calc |(Decimal.stepNum k : ℚ) * (n * 2 ^ j : ℕ) - Decimal.stepDen k * m| * (b.unit / 2)
      = |((Decimal.stepNum k : ℚ) * (n * 2 ^ j : ℕ) - Decimal.stepDen k * m) * (b.unit / 2)| := by
        rw [abs_mul, abs_of_pos hhalf]
    _ = |Decimal.stepDen k * (n * 10 ^ k - m * (b.unit / 2))| := by
        rw [sub_mul, stepNum_mul_half hj]
        ring_nf
    _ = Decimal.stepDen k * |n * 10 ^ k - m * (b.unit / 2)| := by
        rw [abs_mul, abs_of_pos hden]

/-- A decimal on a coarse grid near a number is a small multiple of the number's last place. -/
theorem multiple_lt (hb : Inner b) (hlow : -44 ≤ k) (hhigh : k ≤ 38)
    (hj : Decimal.stepExponent k = j + b.exponent)
    (hless : |n * (10 : ℚ) ^ k - b.toRat| < b.unit / 2) : n * 2 ^ j < 2 ^ 24 := by
  have hunit := b.unit_pos
  have hsize := toRat_le_unit hb
  have hright := (abs_le.mp hless.le).2
  have hbelow : (n * 2 ^ j : ℚ) * b.unit < 2 ^ 24 * b.unit := by
    calc (n * 2 ^ j : ℚ) * b.unit = n * 2 ^ Decimal.stepExponent k := by
          rw [hj, zpow_add₀ two_ne_zero, zpow_natCast, Binary.unit, mul_assoc]
      _ ≤ n * 10 ^ k := by
          gcongr
          exact (Decimal.stepExponent_bounds hlow hhigh).1
      _ < 2 ^ 24 * b.unit := by linarith
  exact_mod_cast lt_of_mul_lt_mul_right hbelow hunit.le

/-- On a coarse grid the decimal stays away from a midpoint that it does not meet, with one
exception. -/
theorem gap_of_coarse (hb : Inner b) (hn : 0 < n) (hlow : -44 ≤ k) (hhigh : k ≤ 38)
    (hcoarse : b.exponent ≤ Decimal.stepExponent k)
    (hless : |n * (10 : ℚ) ^ k - b.toRat| < b.unit / 2) :
    |n * (10 : ℚ) ^ k - b.toRat| + 3 * (n * 10 ^ k / 2 ^ 53) < b.unit / 2 ∨
      b.exponent = -107 ∧ (b.mantissa = 11420669 ∨ b.mantissa = 11420670) := by
  rw [or_iff_not_imp_left, not_lt]
  intro hnear
  obtain ⟨m, hodd, hshort, hm, hdistance⟩ := exists_midpoint hb hless.le
  obtain ⟨j, hj⟩ : ∃ j : ℕ, Decimal.stepExponent k = j + b.exponent :=
    ⟨(Decimal.stepExponent k - b.exponent).toNat, by omega⟩
  have hhalf := half_pos b.unit_pos
  have hden := Decimal.stepDen_pos k
  have hscaled := abs_sub_mul_half hj n m
  rw [hdistance] at hscaled
  -- a midpoint that is missed by little makes a fraction that is near the power of ten
  have hne : (Decimal.stepNum k : ℤ) * (n * 2 ^ j : ℕ) - Decimal.stepDen k * m ≠ 0 := by
    intro hzero
    have hzero' : (Decimal.stepNum k : ℚ) * (n * 2 ^ j : ℕ) - Decimal.stepDen k * m = 0 := by
      exact_mod_cast hzero
    rw [hzero', abs_zero, zero_mul] at hscaled
    exact (mul_pos hden (sub_pos.mpr hless)).ne hscaled
  have hclose : (2 : ℚ) ^ 53 *
      |(Decimal.stepNum k : ℚ) * (n * 2 ^ j : ℕ) - Decimal.stepDen k * m| ≤
      3 * Decimal.stepNum k * (n * 2 ^ j : ℕ) := by
    have hreach : 2 ^ 53 * (b.unit / 2 - |n * 10 ^ k - b.toRat|) ≤ 3 * (n * 10 ^ k) := by
      linarith
    refine le_of_mul_le_mul_right ?_ hhalf
    rw [mul_assoc, hscaled, mul_assoc 3, mul_assoc 3, stepNum_mul_half hj]
    nlinarith
  obtain ⟨rfl, hcoefficient, hmidpoint⟩ :=
    Decimal.eq_of_near hlow hhigh (Nat.mul_pos hn (by positivity))
      (multiple_lt hb hlow hhigh hj hless) hodd hshort hne (by exact_mod_cast hclose)
  refine ⟨?_, by omega⟩
  have hexponent : Decimal.stepExponent (-32) = -107 := by decide +kernel
  -- the multiple is odd, so the grid is no coarser than the number
  have hnone : j = 0 := by
    cases j with
    | zero => rfl
    | succ j =>
      have heven : n * 2 ^ (j + 1) = 2 * (n * 2 ^ j) := by ring
      omega
  omega

end Coarse

/-- A number whose neighbours are equally far, except the two on either side of the one near
miss. -/
structure Plain (b : Binary) : Prop extends Inner b where
  /-- The number is not next to the near miss. -/
  apart : ¬(b.exponent = -107 ∧ (b.mantissa = 11420669 ∨ b.mantissa = 11420670))

/-- The decimal of a number stays away from a midpoint that it does not meet. -/
theorem gap (hb : Plain b) {n : ℕ} {k : ℤ} (hn : 0 < n) (hhigh : k ≤ 38)
    (hhalf : |n * (10 : ℚ) ^ k - b.toRat| ≤ 10 ^ k / 2)
    (hless : |n * (10 : ℚ) ^ k - b.toRat| < b.unit / 2) :
    |n * (10 : ℚ) ^ k - b.toRat| + 3 * (n * 10 ^ k / 2 ^ 53) < b.unit / 2 := by
  have hmin : -149 ≤ b.exponent := hb.fits.le_exponent
  -- below the 44th negative power every grid is finer than the numbers
  by_cases hlow : -44 ≤ k
  · by_cases hcoarse : b.exponent ≤ Decimal.stepExponent k
    · exact (gap_of_coarse hb.toInner hn hlow hhigh hcoarse hless).resolve_right hb.apart
    · refine gap_of_fine hb.toInner ?_ hhalf
      calc (10 : ℚ) ^ k ≤ 127 / 128 * 2 ^ (Decimal.stepExponent k + 1) :=
            (Decimal.stepExponent_bounds hlow hhigh).2
        _ ≤ 127 / 128 * b.unit := by
            unfold Binary.unit
            gcongr
            · norm_num
            · omega
  · refine gap_of_fine hb.toInner ?_ hhalf
    calc (10 : ℚ) ^ k ≤ 10 ^ (-45 : ℤ) := zpow_le_zpow_right₀ (by norm_num) (by omega)
      _ ≤ 127 / 128 * 2 ^ (-149 : ℤ) := by norm_num
      _ ≤ 127 / 128 * b.unit := by
          unfold Binary.unit
          gcongr
          norm_num

end Gap

/-! ## Midpoints are met -/

/-- A power of five in a short product with a power of two is small. -/
theorem lt_of_five_pow_dvd {n x a : ℕ} (hn : 0 < n) (hshort : n < 2 ^ 53) (h : 5 ^ x ∣ n * 2 ^ a) :
    x < 23 := by
  have hcoprime : Nat.Coprime (5 ^ x) (2 ^ a) := Nat.Coprime.pow _ _ (by decide)
  have hle := Nat.le_of_dvd hn (hcoprime.dvd_of_dvd_mul_right h)
  by_contra hlarge
  have hpow : 5 ^ 23 ≤ 5 ^ x := Nat.pow_le_pow_right (by norm_num) (not_lt.mp hlarge)
  have hnum : 2 ^ 53 < 5 ^ 23 := by norm_num
  omega

/-- A decimal of 53 bits with the value of a number of 53 bits has a small power of ten. -/
theorem exponent_bounds_of_eq {d : Decimal} {m : ℕ} {e : ℤ} (hpos : 0 < d.coefficient)
    (hshort : d.coefficient < 2 ^ 53) (hm : 0 < m) (hm' : m < 2 ^ 53)
    (h : d.toRat = m * 2 ^ e) : -22 ≤ d.exponent ∧ d.exponent ≤ 22 := by
  have hten : ∀ x : ℕ, 10 ^ x = 5 ^ x * 2 ^ x := fun x => mul_pow 5 2 x
  rw [Decimal.toRat, zpow_eq_div two_ne_zero e] at h
  -- the powers of five on one side divide the short number on the other
  rcases le_total 0 d.exponent with hnonneg | hnonpos
  · obtain ⟨x, hx⟩ := Int.eq_ofNat_of_zero_le hnonneg
    rw [hx, zpow_natCast, mul_div_assoc', eq_div_iff (by positivity)] at h
    have hnat : d.coefficient * 10 ^ x * 2 ^ (-e).toNat = m * 2 ^ e.toNat := by exact_mod_cast h
    have hsmall := lt_of_five_pow_dvd (x := x) hm hm'
      ⟨d.coefficient * 2 ^ x * 2 ^ (-e).toNat, by rw [← hnat, hten]; ring⟩
    omega
  · obtain ⟨x, hx⟩ : ∃ x : ℕ, d.exponent = -x := ⟨(-d.exponent).toNat, by omega⟩
    rw [hx, zpow_neg, zpow_natCast, ← div_eq_mul_inv, mul_div_assoc',
      div_eq_div_iff (by positivity) (by positivity)] at h
    have hnat : d.coefficient * 2 ^ (-e).toNat = m * 2 ^ e.toNat * 10 ^ x := by exact_mod_cast h
    have hsmall := lt_of_five_pow_dvd (x := x) hpos hshort
      ⟨m * 2 ^ e.toNat * 2 ^ x, by rw [hnat, hten]; ring⟩
    omega

/-! ## Scaling -/

/-- What the decimal of a number scales to is rounded to the number, in whatever way the decimal is
written. -/
theorem ofScaled_eq {b : Binary} (hb : Plain b) {tie : Decimal.Tie} {d : Decimal}
    (hvalue : d.toRat = (shortest tie b).toRat) (hshort : d.coefficient < 2 ^ 53)
    (hlow : -64 ≤ d.exponent) (hhigh : d.exponent ≤ 50) : ofScaled d = some (ofBinary b) := by
  obtain ⟨n, k, hshortest, hn, -, -, hk, hhalf, hclaims⟩ := shortest_spec tie hb.toInner
  have htoRat : d.toRat = n * 10 ^ k := by rw [hvalue, hshortest, Decimal.toRat]
  have hpos : 0 < d.toRat := by
    rw [htoRat]
    positivity
  have hcoefficient : 0 < d.coefficient :=
    Nat.pos_of_ne_zero fun hzero => hpos.ne' (Decimal.toRat_eq_zero.mpr hzero)
  obtain ⟨s, hscaled, herror, hexact⟩ := Decimal.scaled_spec hcoefficient hshort hlow hhigh
  rw [← htoRat] at hhalf hclaims
  -- no midpoint is near, or the decimal meets one, and then it is scaled without an error
  have hstays : b.Claims s.toRat := by
    rcases hclaims with hless | ⟨hmet, heven⟩
    · have hgap := gap hb hn hk (by rwa [← htoRat]) (by rwa [← htoRat])
      rw [← htoRat] at hgap
      have htriangle := abs_sub_le s.toRat d.toRat b.toRat
      left
      linarith
    · obtain ⟨m, hodd, hm, -, hmidpoint⟩ := exists_midpoint hb.toInner hmet.le
      have hmid : d.toRat = m * 2 ^ (b.exponent - 1) := by
        rw [hmet, sub_self, abs_eq_zero, sub_eq_zero] at hmidpoint
        rw [hmidpoint, zpow_sub_one₀ two_ne_zero, Binary.unit, div_eq_mul_inv]
      have hmin : -149 ≤ b.exponent := hb.fits.le_exponent
      have hmpos : 0 < m := by omega
      have hmshort : m < 2 ^ 53 := by omega
      obtain ⟨hfrom, hto⟩ := exponent_bounds_of_eq hcoefficient hshort hmpos hmshort hmid
      rw [hexact m _ hmpos hmshort (by omega) hmid hfrom hto]
      exact .inr ⟨hmet, heven⟩
  have hspos : 0 < s.mantissa := by
    have hbounds := (hstays.bounds hb.mantissa_pos).1
    have hbpos := b.unit_pos.trans_le (Binary.unit_le_toRat hb.mantissa_pos)
    exact Binary.mantissa_pos_of_toRat_pos (by linarith)
  have hnearest : BinaryFormat.single.nearest s.num s.den = b :=
    BinaryFormat.nearest_eq_of_claims hb.toInner s.den_pos (by rwa [Binary.num_div_den])
  rw [ofScaled, hscaled, Option.map_some, if_neg hspos.ne', hnearest]

/-! ## Reading -/

open Json

/-- Whether the decimal of a number is short and its JSON form is read as the number. -/
def Rereads (b : Binary) : Prop :=
  (shortest .even b).coefficient ≤ 10 ^ 9 ∧ -60 ≤ (shortest .even b).exponent ∧
    (shortest .even b).exponent ≤ 40 ∧
    Value.literalSingle? (shortest .even b).json = some (ofBinary b)

instance (b : Binary) : Decidable (Rereads b) := inferInstanceAs (Decidable (_ ∧ _ ∧ _ ∧ _))

/-- A power of two is nearer to its neighbour below, so what claims it is not said by a distance;
all of them are looked at. -/
theorem rereads_powers : ∀ n < 253, Rereads ⟨2 ^ 23, (n : ℕ) - 148⟩ := by
  decide +kernel

theorem rereads_near_miss : Rereads ⟨11420669, -107⟩ ∧ Rereads ⟨11420670, -107⟩ := by
  decide

/-- A number with a full mantissa, at which no power of two is crossed, is read again as itself. -/
theorem rereads_plain {b : Binary} (hb : Plain b) : Rereads b := by
  obtain ⟨n, k, hshortest, -, hn, hlow, hhigh, -⟩ := shortest_spec .even hb.toInner
  have hcoefficient : (shortest .even b).coefficient ≤ 10 ^ 9 := by rw [hshortest]; exact hn
  have hmin : -60 ≤ (shortest .even b).exponent := by rw [hshortest]; show -60 ≤ k; omega
  have hmax : (shortest .even b).exponent ≤ 40 := by rw [hshortest]; show k ≤ 40; omega
  obtain ⟨m, hspells, hvalue, hshort, hfrom, hto⟩ := Decimal.spells_json hcoefficient hmin hmax
  have hleading : m.leading = m.value :=
    Numeral.leading_eq_value (hshort.trans (by decide))
  have hread := hspells.literalSingle?_eq false
  rw [hleading, ofScaled_eq hb hvalue hshort hfrom hto] at hread
  exact ⟨hcoefficient, hmin, hmax, hread⟩

/-- Every number is read from the JSON form of its decimal. -/
theorem rereads {b : Binary} (hfits : Fits b) : Rereads b := by
  by_cases hzero : b.mantissa = 0
  · rw [hfits.eq_zero hzero]
    decide
  by_cases hmiss : b.exponent = -107 ∧ (b.mantissa = 11420669 ∨ b.mantissa = 11420670)
  · obtain ⟨m, e⟩ := b
    obtain ⟨rfl, rfl | rfl⟩ : e = -107 ∧ (m = 11420669 ∨ m = 11420670) := hmiss
    · exact rereads_near_miss.1
    · exact rereads_near_miss.2
  by_cases hinner : b.exponent = -149 ∨ 2 ^ 23 < b.mantissa
  · exact rereads_plain ⟨⟨hfits, Nat.pos_of_ne_zero hzero, hinner⟩, hmiss⟩
  · obtain ⟨m, e⟩ := b
    obtain ⟨hexponent, hpower⟩ : e ≠ -149 ∧ ¬2 ^ 23 < m := not_or.mp hinner
    have hmin : -149 ≤ e := hfits.le_exponent
    have hmax : e ≤ 104 := hfits.exponent_le
    have hfull : 2 ^ 23 ≤ m := hfits.full.resolve_left hexponent
    obtain rfl : m = 2 ^ 23 := by omega
    have hread := rereads_powers (e + 148).toNat (by omega)
    have heq : (((e + 148).toNat : ℕ) : ℤ) - 148 = e := by omega
    rwa [heq] at hread

/-- The JSON form of a number under its sign is a literal of the grammar and read as the number. -/
theorem literalSingle?_json {b : Binary} (hfits : Fits b) (negative : Bool) :
    IsLiteral ((if negative then ['-'] else []) ++ (shortest .even b).json) ∧
      Value.literalSingle? ((if negative then ['-'] else []) ++ (shortest .even b).json) =
        some (signed negative (ofBinary b)) := by
  obtain ⟨hcoefficient, hmin, hmax, hread⟩ := rereads hfits
  obtain ⟨m, hspells, -⟩ := Decimal.spells_json hcoefficient hmin hmax
  have hscaled : ofScaled m.leading = some (ofBinary b) := by
    have hpositive := hspells.literalSingle?_eq false
    have hsame : signed false = id := rfl
    simp only [Bool.false_eq_true, if_false, List.nil_append, hsame, Option.map_id, id] at hpositive
    rw [← hpositive, hread]
  exact ⟨hspells.isLiteral negative, by rw [hspells.literalSingle?_eq, hscaled]; rfl⟩

end Skycam.Single

namespace Skycam.Json.Value

theorem ofSingle_eq_null {x : Float32} (h : x.isFinite = false) : ofSingle x = .null := by
  simp [ofSingle, Single.json?, h]

theorem ofSingle_eq_number {x : Float32} {negative : Bool} {b : Binary}
    (hview : Single.view x = .finite negative b) :
    ofSingle x = .number ((if negative then ['-'] else []) ++ (Single.shortest .even b).json) := by
  have hfinite : x.isFinite = true := Single.isFinite_iff.mpr ⟨negative, b, hview⟩
  simp [ofSingle, Single.json?, hfinite, Single.spell, hview]

/-- What a number is written as has a spelling. -/
theorem printable_ofSingle (x : Float32) : (ofSingle x).Printable := by
  cases hfinite : x.isFinite with
  | false =>
    rw [ofSingle_eq_null hfinite]
    exact .null
  | true =>
    obtain ⟨negative, b, hview⟩ := Single.isFinite_iff.mp hfinite
    rw [ofSingle_eq_number hview]
    exact .number (Single.literalSingle?_json (Single.fits_of_view hview) negative).1

/-- A number is decoded from what it is written as exactly when it is finite. -/
theorem single?_ofSingle (x : Float32) :
    (ofSingle x).single? = if x.isFinite then some x else none := by
  cases hfinite : x.isFinite with
  | false =>
    rw [ofSingle_eq_null hfinite]
    rfl
  | true =>
    obtain ⟨negative, b, hview⟩ := Single.isFinite_iff.mp hfinite
    rw [ofSingle_eq_number hview, if_pos rfl]
    exact (Single.literalSingle?_json (Single.fits_of_view hview) negative).2.trans
      (congrArg some (Single.signed_ofBinary hview))

end Skycam.Json.Value
