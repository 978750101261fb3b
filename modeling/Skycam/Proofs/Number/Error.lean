import Skycam.Proofs.Number.Arithmetic

/-!
# How far one operation goes astray

A value that is not too small moves by at most the `2^24`th part of itself when it is rounded
(`abs_toRat_ofRat_sub_le`), and one of at most 24 bits stays (`toRat_ofRat_of_short`). A sum of
amounts is a multiple of the smallest amount, so it never is too small for the first bound unless it
is exact (`abs_toRat_add_sub_le`).
-/

namespace Skycam.Single

variable {x y : Float32} {q : ℚ} {num den : ℕ}

/-- Where the rounded value is finite, the nearest number can be stored. -/
theorem overflows_of_isAmount (hnum : 0 < num) (hden : 0 < den)
    (h : IsAmount (ofRat (num / den))) :
    BinaryFormat.single.overflows (BinaryFormat.single.nearest num den) = false := by
  obtain ⟨-, hmin, hfull⟩ :=
    BinaryFormat.nearest_rounded (f := BinaryFormat.single) hnum hden (by decide)
  unfold IsAmount at h
  rw [ofRat_div hnum hden, toBits_ofBinary] at h
  generalize BinaryFormat.single.nearest num den = b at *
  have hmin : -149 ≤ b.exponent := hmin
  have hfull : b.exponent = -149 ∨ 2 ^ 23 ≤ b.mantissa := hfull
  have hbits : (b.exponent + 149).toNat * fieldWeight + b.mantissa < infinityBits := by
    unfold sizeBits at h
    omega
  unfold infinityBits topField fieldWeight at hbits
  refine BinaryFormat.overflows_eq_false_iff.mpr ⟨?_, fun hlast => ?_⟩
  · show b.exponent ≤ 104
    omega
  · have hlast : b.exponent = 104 := hlast
    show b.mantissa ≠ 2 ^ 24
    omega

/-- A fraction that is rounded has the value of the nearest number that can be stored. -/
theorem toRat_ofRat_div (hnum : 0 < num) (hden : 0 < den) (h : IsAmount (ofRat (num / den))) :
    toRat (ofRat (num / den)) = (BinaryFormat.single.nearest num den).toRat := by
  have hrounded : (BinaryFormat.single.nearest num den).Rounded BinaryFormat.single :=
    BinaryFormat.nearest_rounded hnum hden (by decide)
  obtain ⟨b, hview, hvalue⟩ :=
    exists_view_signed hrounded (overflows_of_isAmount hnum hden h) false
  rw [signed, if_neg Bool.false_ne_true, ← ofRat_div hnum hden] at hview
  rw [toRat_of_view hview, hvalue]

/-- Rounding moves a value that is not too small by a small part of it. -/
theorem abs_toRat_ofRat_sub_le (hlow : 2 ^ (-126 : ℤ) ≤ q) (h : IsAmount (ofRat q)) :
    |toRat (ofRat q) - q| ≤ q / 2 ^ 24 := by
  have hpos : 0 < q := (by positivity : (0 : ℚ) < 2 ^ (-126 : ℤ)).trans_le hlow
  obtain ⟨num, den, hnum, hden, rfl⟩ := exists_eq_div hpos
  rw [toRat_ofRat_div hnum hden h]
  exact BinaryFormat.abs_nearest_sub_le (f := BinaryFormat.single) hnum hden hlow

/-- A value of at most 24 bits is not moved. -/
theorem toRat_ofRat_of_short {n : ℕ} {e : ℤ} (hn : n < 2 ^ 24) (he : -149 ≤ e)
    (h : IsAmount (ofRat (n * 2 ^ e))) : toRat (ofRat (n * 2 ^ e)) = n * 2 ^ e := by
  rcases Nat.eq_zero_or_pos n with rfl | hpos
  · rw [Nat.cast_zero, zero_mul, ofRat_of_nonpos le_rfl]
    exact toRat_eq_zero toBits_zero
  · obtain ⟨num, den, hnum, hden, hvalue⟩ :=
      exists_eq_div (q := n * 2 ^ e) (by positivity)
    rw [hvalue] at h
    rw [hvalue, toRat_ofRat_div hnum hden h]
    exact BinaryFormat.toRat_nearest (f := BinaryFormat.single) hden hpos hn he hvalue.symm

theorem toRat_ofNat {n : ℕ} (h : n < 2 ^ 24) : toRat (ofNat n) = n := by
  have hexact := toRat_ofRat_of_short (e := 0) h (by decide) (by
    rw [zpow_zero, mul_one, ← ofNat_eq]
    exact (ofNat_isAmount (by omega)).1)
  rwa [zpow_zero, mul_one, ← ofNat_eq] at hexact

/-- An amount is a multiple of the smallest one. -/
theorem exists_toRat_eq (h : IsAmount x) : ∃ n : ℕ, toRat x = n * 2 ^ (-149 : ℤ) := by
  obtain ⟨b, hview⟩ := h.exists_view
  have hmin : -149 ≤ b.exponent := (fits_of_view hview).le_exponent
  obtain ⟨k, hk⟩ : ∃ k : ℕ, b.exponent = k + -149 := ⟨(b.exponent + 149).toNat, by omega⟩
  refine ⟨b.mantissa * 2 ^ k, ?_⟩
  rw [toRat_of_view hview, Binary.toRat, hk, zpow_add₀ two_ne_zero, zpow_natCast]
  push_cast
  ring

/-- A sum of amounts moves by a small part of it. -/
theorem abs_toRat_add_sub_le (hx : IsAmount x) (hy : IsAmount y) (h : IsAmount (x + y)) :
    |toRat (x + y) - (toRat x + toRat y)| ≤ (toRat x + toRat y) / 2 ^ 24 := by
  rw [add_eq hx hy] at h ⊢
  by_cases hlow : 2 ^ (-126 : ℤ) ≤ toRat x + toRat y
  · exact abs_toRat_ofRat_sub_le hlow h
  · -- the sum of two multiples of the smallest amount has few bits
    obtain ⟨n, hn⟩ := exists_toRat_eq hx
    obtain ⟨m, hm⟩ := exists_toRat_eq hy
    have hsum : toRat x + toRat y = (n + m : ℕ) * 2 ^ (-149 : ℤ) := by
      rw [hn, hm]
      push_cast
      ring
    have hfew : n + m < 2 ^ 24 := by
      have hlt : ((n + m : ℕ) : ℚ) * 2 ^ (-149 : ℤ) < 2 ^ (23 : ℤ) * 2 ^ (-149 : ℤ) := by
        rw [← hsum, ← zpow_add₀ two_ne_zero]
        exact not_le.mp hlow
      have hlt' := lt_of_mul_lt_mul_right hlt (by positivity)
      have hlt'' : n + m < 2 ^ 23 := by exact_mod_cast hlt'
      omega
    have hnonneg := add_nonneg (toRat_nonneg hx) (toRat_nonneg hy)
    rw [hsum] at h hnonneg ⊢
    rw [toRat_ofRat_of_short hfew (by decide) h, sub_self, abs_zero]
    positivity

end Skycam.Single
