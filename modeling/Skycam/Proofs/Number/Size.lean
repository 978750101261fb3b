import Skycam.Proofs.Number.Finite
import Skycam.Proofs.Number.Scaled
import Skycam.Proofs.Number.Shortest

/-!
# Sizes of single precision

A size is a number that is not below zero; it may be infinite. Sizes are in the order of their bits
(`IsSize.le_iff`), finite ones in the order of their values (`IsAmount.toRat_le_iff`), and to round
a value to the nearest size keeps the order of the values (`toBits_ofRat_mono`).
-/

namespace Skycam

open Float.Model (UnpackedFloat)
open Single (fieldWeight topField infinityBits signWeight)

/-! ## Rounding keeps the order -/

/-- A larger quotient is not rounded to a smaller one. -/
theorem divNearest_mono {num den num' den' : ℕ} (hden : 0 < den) (hden' : 0 < den')
    (h : (num / den : ℚ) ≤ num' / den') : divNearest num den ≤ divNearest num' den' := by
  by_contra hlt
  have hnear := (abs_le.mp (abs_div_sub_divNearest_le num hden).1).1
  have hnear' := (abs_le.mp (abs_div_sub_divNearest_le num' hden').1).2
  have hstep : (divNearest num' den' : ℚ) + 1 ≤ divNearest num den := by
    exact_mod_cast Nat.not_le.mp hlt
  -- both values lie half way between the two results, so they are the same
  have hsame : (num / den : ℚ) = num' / den' := by linarith
  have hcross : num * den' = num' * den := by
    rw [div_eq_div_iff (by exact_mod_cast hden.ne') (by exact_mod_cast hden'.ne')] at hsame
    exact_mod_cast hsame
  exact hlt (divNearest_congr hden hden' hcross).le

namespace Single

/-- A larger value is not stored as a smaller size. -/
theorem sizeBits_nearest_mono {num den num' den' : ℕ} (hnum : 0 < num) (hden : 0 < den)
    (hnum' : 0 < num') (hden' : 0 < den') (h : (num / den : ℚ) ≤ num' / den') :
    sizeBits (BinaryFormat.single.nearest num den) ≤
      sizeBits (BinaryFormat.single.nearest num' den') := by
  have hexponent : (BinaryFormat.single.nearest num den).exponent ≤
      (BinaryFormat.single.nearest num' den').exponent := by
    have hlog := Int.log_mono_right (b := 2) (by positivity) h
    rw [BinaryFormat.nearest_exponent hnum hden, BinaryFormat.nearest_exponent hnum' hden']
    omega
  have hmantissa := BinaryFormat.nearest_mantissa (f := BinaryFormat.single) num den
  have hmantissa' := BinaryFormat.nearest_mantissa (f := BinaryFormat.single) num' den'
  obtain ⟨hshort, hmin, -⟩ :=
    BinaryFormat.nearest_rounded (f := BinaryFormat.single) hnum hden (by decide)
  obtain ⟨-, hmin', hfull'⟩ :=
    BinaryFormat.nearest_rounded (f := BinaryFormat.single) hnum' hden' (by decide)
  generalize BinaryFormat.single.nearest num den = b at *
  generalize BinaryFormat.single.nearest num' den' = b' at *
  have hmin : -149 ≤ b.exponent := hmin
  have hshort : b.mantissa ≤ 2 ^ 24 := hshort
  have hfull' : b'.exponent = -149 ∨ 2 ^ 23 ≤ b'.mantissa := hfull'
  refine min_le_min_right infinityBits ?_
  rcases hexponent.lt_or_eq with hlt | heq
  · -- the longer mantissa carries at most into the next exponent, where the other one is full
    have hnext : (b.exponent + 149).toNat + 1 ≤ (b'.exponent + 149).toNat := by omega
    have hweight := Nat.mul_le_mul_right fieldWeight hnext
    unfold fieldWeight at hweight ⊢
    omega
  · have hle : b.mantissa ≤ b'.mantissa := by
      rw [hmantissa, hmantissa', heq]
      refine divNearest_mono (by positivity) (by positivity) ?_
      rw [BinaryFormat.scaled_div, BinaryFormat.scaled_div]
      gcongr
    rw [heq]
    exact Nat.add_le_add_left hle _

/-! ## Sizes and their values -/

/-- The number is not below zero; it may be infinite. -/
def IsSize (x : Float32) : Prop := x.toBits.toNat ≤ infinityBits

/-- The number is neither below zero nor infinite. -/
def IsAmount (x : Float32) : Prop := x.toBits.toNat < infinityBits

/-- The value of a number; an infinity and what is no number count as 0. -/
def toRat (x : Float32) : ℚ :=
  match view x with
  | .finite negative b => if negative then -b.toRat else b.toRat
  | _ => 0

/-- The number nearest to a value that is not negative. -/
def ofRat (q : ℚ) : Float32 :=
  if 0 < q then ofBinary (BinaryFormat.single.nearest q.num.toNat q.den) else ofBinary ⟨0, -149⟩

variable {x y : Float32} {b : Binary} {q r : ℚ}

theorem IsAmount.isSize (h : IsAmount x) : IsSize x := Nat.le_of_lt h

theorem isSize_infinity : IsSize infinity := toBits_infinity.le

theorem IsSize.eq_infinity_or_isAmount (h : IsSize x) : x = infinity ∨ IsAmount x := by
  rcases Nat.lt_or_eq_of_le h with hlt | heq
  · exact Or.inr hlt
  · exact Or.inl (eq_of_toBits (heq.trans toBits_infinity.symm))

/-- An amount is taken apart into a binary number without a sign. -/
theorem IsAmount.exists_view (h : IsAmount x) : ∃ b, view x = .finite false b := by
  have hbits : x.toBits.toNat < 255 * 0x800000 := h
  have hrest : x.toBits.toNat % signWeight = x.toBits.toNat :=
    Nat.mod_eq_of_lt (by unfold signWeight; omega)
  have hpositive : isNegative x = false := by
    refine decide_eq_false ?_
    unfold signWeight
    omega
  have hfield : x.toBits.toNat / fieldWeight ≠ topField := by
    unfold fieldWeight topField
    omega
  unfold view
  dsimp only
  rw [hrest, if_neg hfield, hpositive]
  split
  · exact ⟨_, rfl⟩
  · exact ⟨_, rfl⟩

theorem toRat_of_view (h : view x = .finite false b) : toRat x = b.toRat := by
  rw [toRat, h]
  rfl

/-- The bits of an amount are its mantissa behind the exponent field. -/
theorem toBits_of_view (h : view x = .finite false b) :
    x.toBits.toNat = (b.exponent + 149).toNat * fieldWeight + b.mantissa := by
  obtain ⟨hsign, -, hbits⟩ := parts_of_view h
  have hsmall : x.toBits.toNat < signWeight := by simpa [isNegative] using hsign
  rw [hbits, Nat.mod_eq_of_lt hsmall]

/-- What is taken apart into a binary number without a sign is an amount. -/
theorem isAmount_of_view (h : view x = .finite false b) : IsAmount x := by
  obtain ⟨hshort, -, hmax, -⟩ := fits_of_view h
  have hmantissa : b.mantissa < 2 ^ 24 := hshort
  have hexponent : b.exponent ≤ 104 := hmax
  unfold IsAmount
  rw [toBits_of_view h]
  unfold infinityBits topField fieldWeight
  omega

theorem Fits.exponent_of_zero (h : Fits b) (hzero : b.mantissa = 0) : b.exponent = -149 := by
  rcases h.full with hmin | hfull
  · exact hmin
  · rw [hzero] at hfull
    exact absurd hfull (by decide)

/-- An amount is zero, or it has a mantissa. -/
theorem IsAmount.eq_zero_or_exists_view (h : IsAmount x) :
    (x.toBits.toNat = 0 ∧ view x = .finite false ⟨0, -149⟩) ∨
      ∃ b, 0 < b.mantissa ∧ view x = .finite false b := by
  obtain ⟨b, hview⟩ := h.exists_view
  rcases Nat.eq_zero_or_pos b.mantissa with hzero | hpos
  · have hexponent := (fits_of_view hview).exponent_of_zero hzero
    obtain rfl : b = ⟨0, -149⟩ := congrArg₂ Binary.mk hzero hexponent
    exact Or.inl ⟨toBits_of_view hview, hview⟩
  · exact Or.inr ⟨b, hpos, hview⟩

theorem toBits_pos (h : view x = .finite false b) (hpos : 0 < b.mantissa) :
    0 < x.toBits.toNat := by
  rw [toBits_of_view h]
  omega

theorem toUnpacked_of_pos (h : 0 < b.mantissa) :
    (View.finite false b).toUnpacked = .finite .positive b.mantissa b.exponent h := dif_pos h

theorem IsAmount.toUnpacked (h : IsAmount x) :
    (view x).toUnpacked = .zero .positive ∨
      ∃ m e hm, (view x).toUnpacked = .finite .positive m e hm := by
  rcases h.eq_zero_or_exists_view with ⟨-, hview⟩ | ⟨b, hpos, hview⟩
  · exact Or.inl (congrArg View.toUnpacked hview)
  · exact Or.inr ⟨_, _, hpos, hview ▸ toUnpacked_of_pos hpos⟩

theorem view_infinity : view infinity = .infinite false := by decide

theorem toUnpacked_infinity : (view infinity).toUnpacked = .infinity .positive :=
  congrArg View.toUnpacked view_infinity

/-- To the machine a size is infinite, zero, or a mantissa with an exponent. -/
theorem IsSize.toUnpacked (h : IsSize x) :
    (view x).toUnpacked = .infinity .positive ∨ (view x).toUnpacked = .zero .positive ∨
      ∃ m e hm, (view x).toUnpacked = .finite .positive m e hm := by
  rcases h.eq_infinity_or_isAmount with rfl | hamount
  · exact Or.inl toUnpacked_infinity
  · exact Or.inr hamount.toUnpacked

theorem toRat_of_zero (h : view x = .finite false ⟨0, -149⟩) : toRat x = 0 := by
  rw [toRat_of_view h, Binary.toRat, Nat.cast_zero, zero_mul]

theorem toRat_nonneg (h : IsAmount x) : 0 ≤ toRat x := by
  obtain ⟨b, hview⟩ := h.exists_view
  rw [toRat_of_view hview]
  exact b.toRat_nonneg

/-! ## Rounded values -/

theorem ofRat_of_nonpos (h : q ≤ 0) : ofRat q = ofBinary ⟨0, -149⟩ := if_neg h.not_gt

/-- A positive value is the quotient of its whole numerator and its denominator. -/
theorem toNat_num_div_den (h : 0 < q) :
    0 < q.num.toNat ∧ ((q.num.toNat : ℕ) / (q.den : ℕ) : ℚ) = q := by
  have hnum : 0 < q.num := Rat.num_pos.mpr h
  have hcast : ((q.num.toNat : ℕ) : ℚ) = q.num := by
    exact_mod_cast congrArg (Int.cast : ℤ → ℚ) (Int.toNat_of_nonneg hnum.le)
  rw [hcast, Rat.num_div_den]
  exact ⟨by omega, rfl⟩

theorem ofRat_div {num den : ℕ} (hnum : 0 < num) (hden : 0 < den) :
    ofRat (num / den) = ofBinary (BinaryFormat.single.nearest num den) := by
  have hpos : (0 : ℚ) < num / den := by positivity
  obtain ⟨hnum', hvalue⟩ := toNat_num_div_den hpos
  rw [ofRat, if_pos hpos,
    BinaryFormat.nearest_congr hnum' (num / den : ℚ).den_pos hnum hden hvalue]

/-- A positive value as a quotient of natural numbers. -/
theorem exists_eq_div (h : 0 < q) : ∃ num den : ℕ, 0 < num ∧ 0 < den ∧ q = num / den := by
  obtain ⟨hnum, hvalue⟩ := toNat_num_div_den h
  exact ⟨q.num.toNat, q.den, hnum, q.den_pos, hvalue.symm⟩

theorem toBits_zero : (ofBinary ⟨0, -149⟩).toBits.toNat = 0 := by
  rw [toBits_ofBinary]
  simp [sizeBits]

/-- A value is rounded to a size. -/
theorem ofRat_isSize (q : ℚ) : IsSize (ofRat q) := by
  unfold IsSize ofRat
  split
  · rw [toBits_ofBinary]
    exact min_le_right _ _
  · rw [toBits_zero]
    exact Nat.zero_le _

/-- To round values keeps their order. -/
theorem toBits_ofRat_mono (h : q ≤ r) : (ofRat q).toBits.toNat ≤ (ofRat r).toBits.toNat := by
  by_cases hq : 0 < q
  · obtain ⟨num, den, hnum, hden, rfl⟩ := exists_eq_div hq
    obtain ⟨num', den', hnum', hden', rfl⟩ := exists_eq_div (hq.trans_le h)
    rw [ofRat_div hnum hden, ofRat_div hnum' hden', toBits_ofBinary, toBits_ofBinary]
    exact sizeBits_nearest_mono hnum hden hnum' hden' h
  · rw [ofRat_of_nonpos (not_lt.mp hq), toBits_zero]
    exact Nat.zero_le _

theorem ofBinary_of_view (h : view x = .finite false b) : ofBinary b = x := by
  have hsigned := signed_ofBinary h
  rwa [signed, if_neg Bool.false_ne_true] at hsigned

/-- An amount is nearest to its own value. -/
theorem ofRat_toRat (h : IsAmount x) : ofRat (toRat x) = x := by
  rcases h.eq_zero_or_exists_view with ⟨-, hview⟩ | ⟨b, hpos, hview⟩
  · rw [toRat_of_zero hview, ofRat_of_nonpos le_rfl, ofBinary_of_view hview]
  · rw [toRat_of_view hview, ← b.num_div_den, ofRat_div (Binary.num_pos hpos) b.den_pos,
      BinaryFormat.nearest_self (fits_of_view hview) hpos, ofBinary_of_view hview]

/-- Amounts are in the order of their values. -/
theorem IsAmount.toRat_lt_iff (hx : IsAmount x) (hy : IsAmount y) :
    toRat x < toRat y ↔ x.toBits.toNat < y.toBits.toNat := by
  constructor
  · intro hlt
    refine lt_of_le_of_ne ?_ fun heq => ?_
    · have hmono := toBits_ofRat_mono hlt.le
      rwa [ofRat_toRat hx, ofRat_toRat hy] at hmono
    · rw [eq_of_toBits heq] at hlt
      exact absurd hlt (lt_irrefl _)
  · intro hlt
    by_contra hle
    have hmono := toBits_ofRat_mono (not_lt.mp hle)
    rw [ofRat_toRat hx, ofRat_toRat hy] at hmono
    omega

theorem IsAmount.toRat_le_iff (hx : IsAmount x) (hy : IsAmount y) :
    toRat x ≤ toRat y ↔ x.toBits.toNat ≤ y.toBits.toNat := by
  rw [← not_lt, hy.toRat_lt_iff hx, Nat.not_lt]

/-! ## Comparisons -/

theorem le_iff_unpack (x y : Float32) :
    x ≤ y ↔ (view x).toUnpacked.le (view y).toUnpacked = true := by
  rw [← unpack_eq, ← unpack_eq]
  exact ⟨fun h => of_decide_eq_true h, fun h => decide_eq_true h⟩

theorem lt_iff_unpack (x y : Float32) :
    x < y ↔ (view x).toUnpacked.lt (view y).toUnpacked = true := by
  rw [← unpack_eq, ← unpack_eq]
  exact ⟨fun h => of_decide_eq_true h, fun h => decide_eq_true h⟩

/-- Numbers of the format are in the order of their exponents first and of their mantissas then, and
so are their bits. -/
theorem compare_fits {a b : Binary} (ha : Fits a) (hb : Fits b) :
    (compare a.exponent b.exponent).then (compare a.mantissa b.mantissa) =
      compare ((a.exponent + 149).toNat * fieldWeight + a.mantissa)
        ((b.exponent + 149).toNat * fieldWeight + b.mantissa) := by
  obtain ⟨m, e⟩ := a
  obtain ⟨m', e'⟩ := b
  have hshort : m < 2 ^ 24 := ha.mantissa_lt
  have hshort' : m' < 2 ^ 24 := hb.mantissa_lt
  have hmin : -149 ≤ e := ha.le_exponent
  have hmin' : -149 ≤ e' := hb.le_exponent
  have hfull : e = -149 ∨ 2 ^ 23 ≤ m := ha.full
  have hfull' : e' = -149 ∨ 2 ^ 23 ≤ m' := hb.full
  unfold fieldWeight
  dsimp only
  rcases lt_trichotomy e e' with hlt | rfl | hgt
  · rw [compare_lt_iff_lt.mpr hlt, Ordering.lt_then, Eq.comm, compare_lt_iff_lt]
    omega
  · rw [compare_eq_iff_eq.mpr rfl, Ordering.eq_then]
    rcases lt_trichotomy m m' with hlt | rfl | hgt
    · rw [compare_lt_iff_lt.mpr hlt, Eq.comm, compare_lt_iff_lt]
      omega
    · rw [compare_eq_iff_eq.mpr rfl, compare_eq_iff_eq.mpr rfl]
    · rw [compare_gt_iff_gt.mpr hgt, Eq.comm, compare_gt_iff_gt]
      omega
  · rw [compare_gt_iff_gt.mpr hgt, Ordering.gt_then, Eq.comm, compare_gt_iff_gt]
    omega

/-- The model of the machine compares sizes as their bits are compared. -/
theorem compare_sizes (hx : IsSize x) (hy : IsSize y) :
    (view x).toUnpacked.compare (view y).toUnpacked =
      some (compare x.toBits.toNat y.toBits.toNat) := by
  have hzero : (View.finite false ⟨0, -149⟩).toUnpacked = .zero .positive := rfl
  rcases hx.eq_infinity_or_isAmount with rfl | hxamount
  · rcases hy.eq_infinity_or_isAmount with rfl | hyamount
    · rw [toUnpacked_infinity, compare_eq_iff_eq.mpr rfl]
      rfl
    · rw [toBits_infinity, compare_gt_iff_gt.mpr hyamount, toUnpacked_infinity]
      rcases hyamount.toUnpacked with h | ⟨m, e, hm, h⟩ <;> rw [h] <;> rfl
  rcases hy.eq_infinity_or_isAmount with rfl | hyamount
  · rw [toBits_infinity, compare_lt_iff_lt.mpr hxamount, toUnpacked_infinity]
    rcases hxamount.toUnpacked with h | ⟨m, e, hm, h⟩ <;> rw [h] <;> rfl
  rcases hxamount.eq_zero_or_exists_view with ⟨hnone, hview⟩ | ⟨a, hpos, hview⟩
  · rcases hyamount.eq_zero_or_exists_view with ⟨hnone', hview'⟩ | ⟨b, hpos', hview'⟩
    · rw [hnone, hnone', hview, hview', hzero]
      rfl
    · rw [hnone, compare_lt_iff_lt.mpr (toBits_pos hview' hpos'), hview, hview', hzero,
        toUnpacked_of_pos hpos']
      rfl
  · rcases hyamount.eq_zero_or_exists_view with ⟨hnone', hview'⟩ | ⟨b, hpos', hview'⟩
    · rw [hnone', compare_gt_iff_gt.mpr (toBits_pos hview hpos), hview, hview', hzero,
        toUnpacked_of_pos hpos]
      rfl
    · rw [toBits_of_view hview, toBits_of_view hview', hview, hview', toUnpacked_of_pos hpos,
        toUnpacked_of_pos hpos', ← compare_fits (fits_of_view hview) (fits_of_view hview')]
      rfl

theorem IsSize.le_iff (hx : IsSize x) (hy : IsSize y) :
    x ≤ y ↔ x.toBits.toNat ≤ y.toBits.toNat := by
  rw [le_iff_unpack, UnpackedFloat.le, compare_sizes hx hy, Option.any_some,
    Nat.isLE_compare]

theorem IsSize.lt_iff (hx : IsSize x) (hy : IsSize y) :
    x < y ↔ x.toBits.toNat < y.toBits.toNat := by
  rw [lt_iff_unpack, UnpackedFloat.lt, compare_sizes hx hy]
  simp [compare_lt_iff_lt]

/-! ## What is no size -/

/-- What is no number cannot be taken apart. -/
theorem isNaN_iff : x.isNaN = true ↔ view x = .nan := by
  have hmodel : x.isNaN = (view x).toUnpacked.isNaN := by
    rw [← unpack_eq]
    rfl
  rw [hmodel]
  cases view x with
  | nan => exact iff_of_true rfl rfl
  | infinite negative => simp [View.toUnpacked, UnpackedFloat.isNaN]
  | finite negative b =>
    by_cases hpos : 0 < b.mantissa
    · simp [View.toUnpacked, hpos, UnpackedFloat.isNaN]
    · simp [View.toUnpacked, hpos, UnpackedFloat.isNaN]

theorem eq_infinity_of_view (h : view x = .infinite false) : x = infinity := by
  have hx : x.toBits.toNat < 2 ^ 32 := x.toBits.toNat_lt
  have hbits : x.toBits.toNat = infinityBits := by
    unfold view at h
    dsimp only at h
    split at h
    · next htop =>
      split at h
      · next hfraction =>
        have hsign : isNegative x = false := (View.infinite.injEq _ _).mp h
        have hsmall : ¬signWeight ≤ x.toBits.toNat := of_decide_eq_false hsign
        unfold signWeight fieldWeight topField at *
        unfold infinityBits topField fieldWeight
        omega
      · cases h
    · split at h
      · cases h
      · cases h
  exact eq_of_toBits (hbits.trans toBits_infinity.symm)

/-- What is no size is no number at all, or there is a minus sign before it. -/
theorem isSize_or (x : Float32) :
    IsSize x ∨ view x = .nan ∨ view x = .infinite true ∨ ∃ b, view x = .finite true b := by
  cases h : view x with
  | nan => exact Or.inr (Or.inl rfl)
  | infinite negative =>
    cases negative with
    | false => exact Or.inl (eq_infinity_of_view h ▸ isSize_infinity)
    | true => exact Or.inr (Or.inr (Or.inl rfl))
  | finite negative b =>
    cases negative with
    | false => exact Or.inl (isAmount_of_view h).isSize
    | true => exact Or.inr (Or.inr (Or.inr ⟨b, rfl⟩))

/-- A size is a number. -/
theorem IsSize.isNaN_eq_false (h : IsSize x) : x.isNaN = false := by
  rw [Bool.eq_false_iff, ne_eq, isNaN_iff]
  rcases h.eq_infinity_or_isAmount with rfl | hamount
  · rw [view_infinity]
    exact View.noConfusion
  · obtain ⟨b, hview⟩ := hamount.exists_view
    rw [hview]
    exact View.noConfusion

/-- What has a minus sign is at most each size, and no size is less. -/
theorem le_of_negative (hx : view x = .infinite true ∨ ∃ b, view x = .finite true b)
    (hy : IsSize y) : x ≤ y ∧ ¬y < x := by
  have hunpacked : (view x).toUnpacked = .infinity .negative ∨
      (view x).toUnpacked = .zero .negative ∨
        ∃ m e h, (view x).toUnpacked = .finite .negative m e h := by
    rcases hx with hview | ⟨b, hview⟩
    · exact Or.inl (congrArg View.toUnpacked hview)
    · by_cases hpos : 0 < b.mantissa
      · refine Or.inr (Or.inr ⟨b.mantissa, b.exponent, hpos, ?_⟩)
        rw [hview]
        exact dif_pos hpos
      · refine Or.inr (Or.inl ?_)
        rw [hview]
        exact dif_neg hpos
  rw [le_iff_unpack, lt_iff_unpack]
  rcases hunpacked with hx | hx | ⟨m, e, h, hx⟩
  · rcases hy.toUnpacked with hy | hy | ⟨m', e', h', hy⟩ <;> rw [hx, hy] <;>
      exact ⟨rfl, Bool.false_ne_true⟩
  · rcases hy.toUnpacked with hy | hy | ⟨m', e', h', hy⟩ <;> rw [hx, hy] <;>
      exact ⟨rfl, Bool.false_ne_true⟩
  · rcases hy.toUnpacked with hy | hy | ⟨m', e', h', hy⟩ <;> rw [hx, hy] <;>
      exact ⟨rfl, Bool.false_ne_true⟩

/-- A number that is not at most a size is a larger size. -/
theorem isSize_of_not_le (hx : x.isNaN = false) (hy : IsSize y) (h : ¬x ≤ y) :
    IsSize x ∧ y.toBits.toNat < x.toBits.toNat := by
  rcases isSize_or x with hsize | hnan | hnegative
  · rw [hsize.le_iff hy, not_le] at h
    exact ⟨hsize, h⟩
  · rw [isNaN_iff.mpr hnan] at hx
    cases hx
  · exact absurd (le_of_negative hnegative hy).1 h

/-- What is more than a size is a larger size. -/
theorem isSize_of_lt (hx : IsSize x) (h : x < y) : IsSize y ∧ x.toBits.toNat < y.toBits.toNat := by
  rcases isSize_or y with hsize | hnan | hnegative
  · exact ⟨hsize, (hx.lt_iff hsize).mp h⟩
  · rw [lt_iff_unpack, hnan] at h
    cases hunpacked : (view x).toUnpacked <;> rw [hunpacked] at h <;> cases h
  · exact absurd h (le_of_negative hnegative hx).2

end Single

end Skycam
