import Skycam.Proofs.Playback.Exact
import Skycam.Proofs.Recovery.Drift

/-!
# A first step that falls just short of the timeout

The first step of time is added to a clock at zero, which no rounding changes, and yet the slack
grants it one unit in the last place of 1 as a part of it. That is between one and two last places
of the step. So a first step that is short of the timeout by one last place asks for the last look
all the same, and one that is short of it by more than two does not (`first_step_short`).
-/

namespace Skycam

namespace Single

variable {x y : Float32} {a b : Binary}

/-! ## The next number -/

/-- The number with the next bits is one last place more, and its last place does not weigh less. -/
theorem toRat_of_next (hx : view x = .finite false a) (hy : view y = .finite false b)
    (h : y.toBits.toNat = x.toBits.toNat + 1) :
    toRat y = toRat x + a.unit ∧ a.unit ≤ b.unit := by
  obtain ⟨hshort, hmin, -, hfull⟩ := fits_of_view hx
  obtain ⟨hshort', hmin', -, hfull'⟩ := fits_of_view hy
  have hbits := toBits_of_view hx
  have hbits' := toBits_of_view hy
  rw [toRat_of_view hx, toRat_of_view hy, Binary.toRat_eq, Binary.toRat_eq]
  obtain ⟨m, e⟩ := a
  obtain ⟨m', e'⟩ := b
  have hshort : m < 2 ^ 24 := hshort
  have hmin : -149 ≤ e := hmin
  have hfull : e = -149 ∨ 2 ^ 23 ≤ m := hfull
  have hshort' : m' < 2 ^ 24 := hshort'
  have hmin' : -149 ≤ e' := hmin'
  have hfull' : e' = -149 ∨ 2 ^ 23 ≤ m' := hfull'
  unfold fieldWeight at hbits hbits'
  dsimp only at hbits hbits'
  rcases lt_trichotomy e e' with hlt | rfl | hgt
  · -- the mantissa was the longest one
    obtain rfl : e' = e + 1 := by omega
    obtain rfl : m = 2 ^ 24 - 1 := by omega
    obtain rfl : m' = 2 ^ 23 := by omega
    unfold Binary.unit
    dsimp only
    rw [zpow_add_one₀ two_ne_zero]
    have hpos : (0 : ℚ) < 2 ^ e := by positivity
    refine ⟨?_, by linarith⟩
    push_cast
    ring
  · obtain rfl : m' = m + 1 := by omega
    refine ⟨?_, le_rfl⟩
    unfold Binary.unit
    push_cast
    ring
  · omega

/-- The number with given bits. -/
theorem exists_toBits {n : ℕ} (h : n < infinityBits) :
    ∃ x b, x.toBits.toNat = n ∧ view x = .finite false b := by
  have hbits : (Float32.ofBits n.toUInt32).toBits.toNat = n :=
    toBits_ofBits (h.trans (by decide)) ((Nat.mod_le _ _).trans h.le)
  have hamount : IsAmount (Float32.ofBits n.toUInt32) := hbits.trans_lt h
  obtain ⟨b, hview⟩ := hamount.exists_view
  exact ⟨_, b, hbits, hview⟩

/-- Half of the smallest number and less is rounded to zero. -/
theorem toRat_ofRat_of_le_half {q : ℚ} (h : q ≤ 2 ^ (-150 : ℤ)) : toRat (ofRat q) = 0 := by
  have hhalf : (ofRat ((1 : ℕ) / (2 ^ 150 : ℕ))).toBits.toNat = 0 := by
    rw [ofRat_div one_pos (by positivity), toBits_ofBinary]
    decide +kernel
  have hvalue : ((1 : ℕ) / (2 ^ 150 : ℕ) : ℚ) = 2 ^ (-150 : ℤ) := by norm_num
  have hmono := toBits_ofRat_mono h
  rw [hvalue] at hhalf
  rw [hhalf] at hmono
  exact toRat_eq_zero (Nat.le_zero.mp hmono)

/-- More than half of the smallest number is not. -/
theorem toBits_ofRat_pos {q : ℚ} (h : 2 ^ (-150 : ℤ) < q) : 0 < (ofRat q).toBits.toNat := by
  have hpos : 0 < q := (by positivity : (0 : ℚ) < 2 ^ (-150 : ℤ)).trans h
  obtain ⟨num, den, hnum, hden, rfl⟩ := exists_eq_div hpos
  have hclaims := (BinaryFormat.claims_nearest (f := BinaryFormat.single) num hden).le_half
  have hmin : -149 ≤ (BinaryFormat.single.nearest num den).exponent :=
    (BinaryFormat.nearest_rounded (f := BinaryFormat.single) hnum hden (by decide)).le_exponent
  rw [ofRat_div hnum hden, toBits_ofBinary]
  generalize BinaryFormat.single.nearest num den = b at *
  by_contra hnone
  unfold sizeBits infinityBits topField fieldWeight at hnone
  have hzero : b.mantissa = 0 := by omega
  have hlast : b.exponent = -149 := by omega
  rw [Binary.toRat_eq, hzero, Nat.cast_zero, zero_mul, sub_zero, abs_of_pos hpos, Binary.unit,
    hlast] at hclaims
  have hhalf : (2 : ℚ) ^ (-149 : ℤ) / 2 = 2 ^ (-150 : ℤ) := by norm_num
  linarith

end Single

namespace RecoveryTimer

open Single (IsSize IsAmount toRat bits_zero zero_isSize zero_isAmount)

variable {interval timeout dt : Float32} {b : Binary}

/-! ## The slack of a first step -/

/-- What is granted to a first step. -/
def firstSlack (dt : Float32) : Float32 := allowance 1 * dt

theorem firstSlack_eq (hdt : IsAmount dt) :
    firstSlack dt = Single.ofRat (2 ^ (-23 : ℤ) * toRat dt) := by
  have hone : toRat (allowance 1) = 2 ^ (-23 : ℤ) := by
    rw [toRat_allowance (by decide), UInt32.toNat_one, roundoff]
    norm_num
  rw [firstSlack, Single.mul_eq (allowance_isAmount 1) hdt, hone]

theorem firstSlack_isAmount (hdt : IsAmount dt) : IsAmount (firstSlack dt) := by
  have hnonneg := Single.toRat_nonneg hdt
  rw [firstSlack_eq hdt]
  refine (Single.isAmount_ofRat hdt ?_).1
  exact mul_le_of_le_one_left hnonneg (zpow_le_one_of_nonpos₀ one_le_two (by norm_num))

/-- The time that counts after a first step. -/
theorem first_final_iff_bits (hdt : dt.isFinite = true ∧ 0.0 < dt) (hfinite : IsAmount timeout)
    (hpos : 0 < toRat timeout) :
    ((new interval timeout).advance dt).1 = .final ↔
      timeout.toBits.toNat ≤ (dt + firstSlack dt).toBits.toNat := by
  obtain ⟨hamount, -⟩ := isAmount_of_counts hdt
  have hclock : (0.0 : Float32) + dt = dt := by
    rw [Single.add_eq zero_isAmount hamount, toRat_zero, zero_add, Single.ofRat_toRat hamount]
  have hadd : (new interval timeout).add dt =
      { new interval timeout with clock := dt, ticks := 1 } := by
    have hcounts : (new interval timeout).add dt =
        { new interval timeout with clock := (0.0 : Float32) + dt, ticks := 1 } := if_pos hdt
    rw [hcounts, hclock]
  have htimeout : (new interval timeout).timeout = timeout := new_timeout hfinite hpos
  have hsize := Single.add_isSize hamount.isSize (firstSlack_isAmount hamount).isSize
  rw [advance_final_iff, hadd, ← hfinite.isSize.le_iff hsize]
  show (new interval timeout).timeout ≤ dt + firstSlack dt ↔ _
  rw [htimeout]

section Gap

variable (hview : Single.view dt = .finite false b)

include hview

theorem toRat_lt_of_view : toRat dt < 2 ^ 24 * b.unit := by
  have hshort : (b.mantissa : ℚ) < 2 ^ 24 := by
    exact_mod_cast (Single.fits_of_view hview).mantissa_lt
  have hunit := b.unit_pos
  rw [Single.toRat_of_view hview, Binary.toRat_eq]
  gcongr

/-- The slack of a first step is at most two last places. -/
theorem firstSlack_le {y : Float32} (hy : IsAmount y) (hle : 2 * b.unit ≤ toRat y) :
    toRat (firstSlack dt) ≤ 2 * b.unit := by
  have hamount := Single.isAmount_of_view hview
  have htwo := (Single.isAmount_ofRat hy hle).1
  have hexact : toRat (Single.ofRat (2 * b.unit)) = 2 * b.unit := by
    have hshort := Single.toRat_ofRat_of_short (n := 2) (e := b.exponent) (by norm_num)
      (Single.fits_of_view hview).le_exponent htwo
    exact hshort
  have hsmall : 2 ^ (-23 : ℤ) * toRat dt ≤ toRat (Single.ofRat (2 * b.unit)) := by
    rw [hexact]
    have hlt := toRat_lt_of_view hview
    calc 2 ^ (-23 : ℤ) * toRat dt ≤ 2 ^ (-23 : ℤ) * (2 ^ 24 * b.unit) := by gcongr
      _ = 2 * b.unit := by norm_num; ring
  rw [firstSlack_eq hamount, ← hexact]
  exact (Single.isAmount_ofRat htwo hsmall).2

/-- A first step that is more than two last places short does not ask for the last look. -/
theorem toBits_add_firstSlack_le (h : dt.toBits.toNat + 2 < Single.infinityBits) :
    (dt + firstSlack dt).toBits.toNat ≤ dt.toBits.toNat + 2 := by
  have hamount := Single.isAmount_of_view hview
  obtain ⟨y, c, hybits, hyview⟩ := Single.exists_toBits (n := dt.toBits.toNat + 1) (by omega)
  obtain ⟨z, d, hzbits, hzview⟩ := Single.exists_toBits h
  obtain ⟨hy, hunit⟩ := Single.toRat_of_next hview hyview hybits
  obtain ⟨hz, -⟩ := Single.toRat_of_next hyview hzview (by omega)
  have hzamount := Single.isAmount_of_view hzview
  have hnonneg := Single.toRat_nonneg hamount
  have hslack := firstSlack_le hview hzamount (by linarith)
  have hbelow : toRat dt + toRat (firstSlack dt) ≤ toRat z := by linarith
  have hmono := Single.toBits_ofRat_mono hbelow
  rwa [Single.ofRat_toRat hzamount, hzbits,
    ← Single.add_eq hamount (firstSlack_isAmount hamount)] at hmono

/-- The slack of a first step is at least one last place, unless the step is next to nothing. -/
theorem unit_le_firstSlack (hlow : 2 ^ (-127 : ℤ) < toRat dt) :
    b.unit ≤ toRat (firstSlack dt) := by
  have hamount := Single.isAmount_of_view hview
  have hslack := firstSlack_isAmount hamount
  have hfits := Single.fits_of_view hview
  rw [firstSlack_eq hamount] at hslack ⊢
  by_cases hlong : 2 ^ 23 ≤ b.mantissa
  · have hunit := b.unit_pos
    have hle : (1 : ℕ) * 2 ^ b.exponent ≤ 2 ^ (-23 : ℤ) * toRat dt := by
      have hlong' : (2 : ℚ) ^ 23 ≤ b.mantissa := by exact_mod_cast hlong
      rw [Single.toRat_of_view hview, Binary.toRat_eq, ← Binary.unit]
      calc (1 : ℕ) * b.unit = 2 ^ (-23 : ℤ) * (2 ^ 23 * b.unit) := by norm_num; ring
        _ ≤ 2 ^ (-23 : ℤ) * (b.mantissa * b.unit) := by gcongr
    have hmono := Single.toBits_ofRat_mono hle
    have hone : IsAmount (Single.ofRat ((1 : ℕ) * 2 ^ b.exponent)) := hmono.trans_lt hslack
    have hexact := Single.toRat_ofRat_of_short (by norm_num) hfits.le_exponent hone
    have hvalue := (hone.toRat_le_iff hslack).mpr hmono
    rw [hexact, Nat.cast_one, one_mul] at hvalue
    exact hvalue
  · -- the last place is the smallest number
    have hlast : b.exponent = -149 := hfits.full.resolve_right hlong
    have hpos : 0 < (Single.ofRat (2 ^ (-23 : ℤ) * toRat dt)).toBits.toNat := by
      refine Single.toBits_ofRat_pos ?_
      calc (2 : ℚ) ^ (-150 : ℤ) = 2 ^ (-23 : ℤ) * 2 ^ (-127 : ℤ) := by norm_num
        _ < 2 ^ (-23 : ℤ) * toRat dt := by gcongr
    obtain ⟨y, c, hybits, hyview⟩ := Single.exists_toBits (n := 1) (by decide)
    have hzero : Single.view (0.0 : Float32) = .finite false ⟨0, -149⟩ := by decide +kernel
    have hy := (Single.toRat_of_next hzero hyview (hybits.trans (by rw [bits_zero]))).1
    have hle := ((Single.isAmount_of_view hyview).toRat_le_iff hslack).mpr (hybits.trans_le hpos)
    rw [hy, toRat_zero, zero_add] at hle
    rwa [Binary.unit, hlast]

/-- A first step that is one last place short asks for the last look, unless it is next to
nothing. -/
theorem first_final_iff_of_next (hdt : dt.isFinite = true ∧ 0.0 < dt) (hfinite : IsAmount timeout)
    (hnext : timeout.toBits.toNat = dt.toBits.toNat + 1) :
    ((new interval timeout).advance dt).1 = .final ↔ 2 ^ (-127 : ℤ) < toRat dt := by
  have hamount := Single.isAmount_of_view hview
  have hslack := firstSlack_isAmount hamount
  obtain ⟨c, hcview⟩ := hfinite.exists_view
  have hvalue := (Single.toRat_of_next hview hcview hnext).1
  have hunit := b.unit_pos
  have hnonneg := Single.toRat_nonneg hamount
  rw [first_final_iff_bits hdt hfinite (by linarith)]
  constructor
  · intro hfinal
    by_contra hsmall
    have hnone : toRat (firstSlack dt) = 0 := by
      rw [firstSlack_eq hamount]
      refine Single.toRat_ofRat_of_le_half ?_
      calc 2 ^ (-23 : ℤ) * toRat dt ≤ 2 ^ (-23 : ℤ) * 2 ^ (-127 : ℤ) := by
            gcongr
            exact not_lt.mp hsmall
        _ = 2 ^ (-150 : ℤ) := by norm_num
    rw [Single.add_eq hamount hslack, hnone, add_zero, Single.ofRat_toRat hamount] at hfinal
    omega
  · intro hlow
    have hle : toRat timeout ≤ toRat dt + toRat (firstSlack dt) := by
      have hgrant := unit_le_firstSlack hview hlow
      linarith
    have hmono := Single.toBits_ofRat_mono hle
    rwa [Single.ofRat_toRat hfinite, ← Single.add_eq hamount hslack] at hmono

/-- The slack of a first step that is not too small is exact. -/
theorem first_final_iff_of_le (hdt : dt.isFinite = true ∧ 0.0 < dt) (hfinite : IsAmount timeout)
    (hpos : 0 < toRat timeout) (hlow : 2 ^ (-103 : ℤ) ≤ toRat dt) :
    ((new interval timeout).advance dt).1 = .final ↔
      timeout.toBits.toNat ≤ (Single.ofRat (toRat dt * (1 + 2 ^ (-23 : ℤ)))).toBits.toNat := by
  have hamount := Single.isAmount_of_view hview
  have hslack := firstSlack_isAmount hamount
  have hfits := Single.fits_of_view hview
  have hexponent : -149 ≤ b.exponent - 23 := by
    by_contra hsmall
    have hlt := toRat_lt_of_view hview
    have hunit : b.unit ≤ 2 ^ (-127 : ℤ) := by
      unfold Binary.unit
      exact zpow_le_zpow_right₀ one_le_two (by omega)
    have hmost : (2 : ℚ) ^ 24 * 2 ^ (-127 : ℤ) = 2 ^ (-103 : ℤ) := by norm_num
    nlinarith
  have hproduct : 2 ^ (-23 : ℤ) * toRat dt = b.mantissa * 2 ^ (b.exponent - 23) := by
    rw [Single.toRat_of_view hview, Binary.toRat, sub_eq_add_neg, zpow_add₀ two_ne_zero]
    ring
  have hexact : toRat (firstSlack dt) = 2 ^ (-23 : ℤ) * toRat dt := by
    rw [firstSlack_eq hamount, hproduct] at hslack ⊢
    exact Single.toRat_ofRat_of_short hfits.mantissa_lt hexponent hslack
  rw [first_final_iff_bits hdt hfinite hpos, Single.add_eq hamount hslack, hexact]
  ring_nf

end Gap

/-! ## Without rounding -/

/-- Without roundings a first step is final once the step and its slack make up the timeout. -/
theorem first_final_iff_exact {interval timeout dt : ℚ} (hpos : 0 < dt) (htimeout : 0 < timeout) :
    ((new interval timeout).advance dt).1 = .final ↔ timeout ≤ dt * (1 + 2 ^ (-23 : ℤ)) := by
  have hzero : (0.0 : ℚ) = 0 := by norm_num
  have hunit : (unitInLastPlace : ℚ) = 2 ^ (-23 : ℤ) := by
    unfold unitInLastPlace
    norm_num
  have hcounts : Scalar.isFinite dt = true ∧ (0.0 : ℚ) < dt := ⟨rfl, hzero ▸ hpos⟩
  have hadd : (new interval timeout).add dt =
      { new interval timeout with clock := (0.0 : ℚ) + dt, ticks := 1 } := if_pos hcounts
  have hmax : (new interval timeout).timeout = timeout := by
    show Scalar.max timeout (0.0 : ℚ) = timeout
    unfold Scalar.max
    rw [if_neg (by exact Bool.false_ne_true), if_neg (by rw [hzero]; exact not_le.mpr htimeout)]
  have hnow : (new interval timeout).timeout ≤
      (0.0 + dt) + ((1 : UInt32).toNat : ℚ) * unitInLastPlace * (0.0 + dt) ↔
        timeout ≤ dt * (1 + 2 ^ (-23 : ℤ)) := by
    rw [hmax, hunit, hzero, zero_add, UInt32.toNat_one, Nat.cast_one, one_mul, mul_add, mul_one,
      mul_comm dt]
  rw [advance_final_iff, hadd]
  exact hnow

/-- When a first step of time that is short of the timeout asks for the last look: when the timeout
is not above the step and its `2^23`th part, both the part and the sum rounded. So it does only if
the timeout is one of the next two numbers after the step. It does if the timeout is the next
number, unless the step is as small as `2^(-127)`. For a step that is not small, only the sum is
rounded. And `exactStep` asks for the last look, without rounding, if it is short of the timeout by
no more than its `2^23`th part. -/
theorem first_step_short (interval timeout dt : Float32)
    (exactInterval exactTimeout exactStep : ℚ) :
    (timeout.isFinite = true → 0.0 < dt → dt < timeout →
      (((new interval timeout).advance dt).1 = .final ↔
        timeout ≤ Single.ofRat (toRat dt + toRat (Single.ofRat (2 ^ (-23 : ℤ) * toRat dt)))) ∧
      (((new interval timeout).advance dt).1 = .final →
        timeout.toBits.toNat ≤ dt.toBits.toNat + 2) ∧
      (timeout.toBits.toNat = dt.toBits.toNat + 1 →
        (((new interval timeout).advance dt).1 = .final ↔ 2 ^ (-127 : ℤ) < toRat dt)) ∧
      (2 ^ (-103 : ℤ) ≤ toRat dt →
        (((new interval timeout).advance dt).1 = .final ↔
          timeout ≤ Single.ofRat (toRat dt * (1 + 2 ^ (-23 : ℤ)))))) ∧
    (0 < exactStep → exactStep < exactTimeout →
      (((new exactInterval exactTimeout).advance exactStep).1 = .final ↔
        exactTimeout ≤ exactStep * (1 + 2 ^ (-23 : ℤ)))) := by
  refine ⟨fun hfinite hpos hshort => ?_,
    fun hpos hshort => first_final_iff_exact hpos (hpos.trans hshort)⟩
  obtain ⟨hsize, hbits⟩ := Single.isSize_of_lt zero_isSize hpos
  obtain ⟨hlarger, hless⟩ := Single.isSize_of_lt hsize hshort
  rw [bits_zero] at hbits
  have htimeout : IsAmount timeout := by
    rcases hlarger.eq_infinity_or_isAmount with rfl | hamount
    · exact absurd hfinite Single.not_isFinite_infinity
    · exact hamount
  have hamount : IsAmount dt := hless.trans htimeout
  have hdt : dt.isFinite = true ∧ 0.0 < dt := ⟨Single.isFinite_eq_true hamount, hpos⟩
  have hpositive : 0 < toRat timeout :=
    (Single.toRat_pos_iff htimeout).mpr (by omega)
  obtain ⟨b, hview⟩ := hamount.exists_view
  refine ⟨?_, fun hfinal => ?_, first_final_iff_of_next hview hdt htimeout, fun hlow => ?_⟩
  · rw [first_final_iff_bits hdt htimeout hpositive, ← firstSlack_eq hamount,
      ← Single.add_eq hamount (firstSlack_isAmount hamount)]
    exact (htimeout.isSize.le_iff
      (Single.add_isSize hamount.isSize (firstSlack_isAmount hamount).isSize)).symm
  · by_contra hfar
    have htop : timeout.toBits.toNat < Single.infinityBits := htimeout
    have hle := toBits_add_firstSlack_le hview (by omega)
    have hdue := (first_final_iff_bits hdt htimeout hpositive).mp hfinal
    omega
  · rw [first_final_iff_of_le hview hdt htimeout hpositive hlow,
      htimeout.isSize.le_iff (Single.ofRat_isSize _)]

/-- A first step that is one last place short of three seconds, with and without roundings. -/
theorem first_step_short_three :
    (3.0 : Float32).isFinite = true ∧ (0.0 : Float32) < 2.9999998 ∧ (2.9999998 : Float32) < 3.0 ∧
      ((new (0.25 : Float32) 3.0).advance 2.9999998).1 = .final ∧
      ((new (1 / 4 : ℚ) 3).advance (3 - 2 ^ (-22 : ℤ))).1 = .final := by
  have hfinite : (3.0 : Float32).isFinite = true := by decide +kernel
  have hpos : (0.0 : Float32) < 2.9999998 := by decide +kernel
  have hshort : (2.9999998 : Float32) < 3.0 := by decide +kernel
  have hvalue : toRat (2.9999998 : Float32) = 3 - 2 ^ (-22 : ℤ) := by
    have hview : Single.view (2.9999998 : Float32) = .finite false ⟨3 * 2 ^ 22 - 1, -22⟩ := by
      decide +kernel
    rw [Single.toRat_of_view hview, Binary.toRat]
    norm_num
  obtain ⟨hsingle, hexact⟩ := first_step_short 0.25 3.0 2.9999998 (1 / 4) 3 (3 - 2 ^ (-22 : ℤ))
  obtain ⟨-, -, hnext, -⟩ := hsingle hfinite hpos hshort
  refine ⟨hfinite, hpos, hshort, (hnext (by decide +kernel)).mpr ?_, (hexact ?_ ?_).mpr ?_⟩
  · rw [hvalue]
    norm_num
  · norm_num
  · norm_num
  · norm_num

/-- A single step that is short of the timeout can ask for the last look, with and without
rounding. -/
theorem first_step_short_final :
    (¬ ∀ interval timeout dt : Float32, timeout.isFinite = true → 0.0 < timeout → 0.0 < dt →
      dt < timeout → ((new interval timeout).advance dt).1 ≠ .final) ∧
    ¬ ∀ interval timeout dt : ℚ, 0 < timeout → 0 < dt → dt < timeout →
      ((new interval timeout).advance dt).1 ≠ .final := by
  constructor
  · intro h
    refine h 0.25 3.0 2.9999998 ?_ ?_ ?_ ?_ ?_ <;> decide +kernel
  · intro h
    refine h (1 / 4) 3 (3 - 2 ^ (-22 : ℤ)) (by norm_num) (by norm_num) (by norm_num) ?_
    exact (first_final_iff_exact (by norm_num) (by norm_num)).mpr (by norm_num)

end RecoveryTimer

end Skycam
