import Skycam.Proofs.Number.Quotient

/-!
# Numbers that stay finite

An integer of 32 bits is a finite number, and one that is not zero has a size of at least one. A
finite number divided by a number of at least one stays finite: the quotient does not lie beyond the
largest number, and so it is not rounded beyond it.
-/

namespace Skycam.Single

/-! ## Rounded numbers are decoded again -/

/-- A number that fits is taken apart into what it was made of. -/
theorem view_signed_of_fits {b : Binary} (h : Fits b) (s : Bool) :
    view (signed s (ofBinary b)) = .finite s b := by
  obtain ⟨m, e⟩ := b
  have hmantissa : m < 2 ^ 24 := h.mantissa_lt
  have hmin : -149 ≤ e := h.le_exponent
  have hmax : e ≤ 104 := h.exponent_le
  have hfull : e = -149 ∨ 2 ^ 23 ≤ m := h.full
  have hsize : sizeBits ⟨m, e⟩ = (e + 149).toNat * fieldWeight + m := by
    refine min_eq_left ?_
    unfold infinityBits topField fieldWeight
    dsimp only
    omega
  have hsmall : sizeBits ⟨m, e⟩ < signWeight := by
    rw [hsize]
    unfold fieldWeight signWeight
    omega
  have hrest : (s.toNat * signWeight + sizeBits ⟨m, e⟩) % signWeight = sizeBits ⟨m, e⟩ := by
    rw [Nat.mul_add_mod_self_right, Nat.mod_eq_of_lt hsmall]
  have hsign : decide (signWeight ≤ s.toNat * signWeight + sizeBits ⟨m, e⟩) = s := by
    cases s with
    | false => simpa using hsmall
    | true => simp
  obtain ⟨k, rfl⟩ : ∃ k : ℕ, e = k - 149 := ⟨(e + 149).toNat, by omega⟩
  have hk : ((k : ℤ) - 149 + 149).toNat = k := by omega
  unfold view isNegative
  dsimp only
  rw [toBits_signed, hrest, hsign, hsize, hk]
  by_cases hfraction : m < 2 ^ 23
  · have hzero : k = 0 := by omega
    have hfield : (k * fieldWeight + m) / fieldWeight = 0 := by
      unfold fieldWeight
      omega
    have hmod : (k * fieldWeight + m) % fieldWeight = m := by
      unfold fieldWeight
      omega
    rw [hfield, hmod, if_neg (by decide), if_pos rfl, hzero]
    rfl
  · have hfield : (k * fieldWeight + m) / fieldWeight = k + 1 := by
      unfold fieldWeight
      omega
    have hmod : fieldWeight + (k * fieldWeight + m) % fieldWeight = m := by
      unfold fieldWeight
      omega
    have htop : k + 1 ≠ topField := by
      unfold topField
      omega
    have hexponent : ((k + 1 : ℕ) - 150 : ℤ) = k - 149 := by
      push_cast
      ring
    rw [hfield, hmod, if_neg htop, if_neg k.succ_ne_zero, hexponent]

/-- A rounded number that is not too large is decoded to a size of its value. -/
theorem exists_view_signed {b : Binary} (h : b.Rounded BinaryFormat.single)
    (hover : BinaryFormat.single.overflows b = false) (s : Bool) :
    ∃ b', view (signed s (ofBinary b)) = .finite s b' ∧ b'.toRat = b.toRat := by
  rcases h.exists_fits (by decide) hover with hfits | ⟨hmantissa, hfits⟩
  · exact ⟨b, view_signed_of_fits hfits s, rfl⟩
  · obtain ⟨m, e⟩ := b
    obtain rfl : m = 2 ^ 24 := hmantissa
    have hcarry : ofBinary ⟨2 ^ 24, e⟩ = ofBinary ⟨2 ^ 23, e + 1⟩ := by
      apply eq_of_toBits
      rw [toBits_ofBinary, toBits_ofBinary, sizeBits_carry h.le_exponent]
    have hvalue : Binary.toRat ⟨2 ^ 23, e + 1⟩ = Binary.toRat ⟨2 ^ 24, e⟩ := by
      rw [Binary.toRat, Binary.toRat, zpow_add_one₀ two_ne_zero]
      push_cast
      ring
    rw [hcarry]
    exact ⟨_, view_signed_of_fits hfits s, hvalue⟩

/-! ## Integers -/

/-- An integer of 32 bits is finite, under either sign, and its size is at least one unless it is
zero. -/
theorem exists_view_ofNat {n : ℕ} (hn : n < 2 ^ 32) (s : Bool) :
    ∃ b, view (signed s (ofNat n)) = .finite s b ∧ (0 < n → 1 ≤ b.toRat) := by
  by_cases hzero : n = 0
  · have hfits : Fits ⟨0, -149⟩ := ⟨by decide, le_rfl, by decide, .inl rfl⟩
    rw [ofNat, if_pos hzero]
    exact ⟨_, view_signed_of_fits hfits s, fun hpos => absurd hzero hpos.ne'⟩
  · have hpos := Nat.pos_of_ne_zero hzero
    have hrounded : (BinaryFormat.single.nearest n 1).Rounded BinaryFormat.single :=
      BinaryFormat.nearest_rounded hpos one_pos (by decide)
    have hlog : Nat.log 2 n < 32 := Nat.log_lt_of_lt_pow hzero hn
    have hexponent : (BinaryFormat.single.nearest n 1).exponent = Nat.log 2 n + 1 - 24 := by
      rw [BinaryFormat.nearest_exponent hpos one_pos, Nat.cast_one, div_one, Int.log_natCast]
      exact max_eq_left (by show (-149 : ℤ) ≤ _ - (24 : ℕ); omega)
    have hover : BinaryFormat.single.overflows (BinaryFormat.single.nearest n 1) = false := by
      refine BinaryFormat.overflows_eq_false_of_lt ?_
      show (BinaryFormat.single.nearest n 1).exponent < 104
      omega
    obtain ⟨b, hview, hvalue⟩ := exists_view_signed hrounded hover s
    rw [ofNat, if_neg hzero]
    refine ⟨b, hview, fun _ => ?_⟩
    have hmin : (BinaryFormat.single.nearest n 1).exponent ≠ -149 := by omega
    have hmantissa : 2 ^ 23 ≤ (BinaryFormat.single.nearest n 1).mantissa :=
      hrounded.full.resolve_left hmin
    rw [hvalue, Binary.toRat]
    calc (1 : ℚ) = 2 ^ 23 * 2 ^ (-23 : ℤ) := by norm_num
      _ ≤ (BinaryFormat.single.nearest n 1).mantissa *
            2 ^ (BinaryFormat.single.nearest n 1).exponent := by
        gcongr
        · exact_mod_cast hmantissa
        · norm_num
        · omega

theorem exists_view_ofUInt32 (n : UInt32) :
    ∃ b, view (Scalar.ofUInt32 n : Float32) = .finite false b ∧ (0 < n → 1 ≤ b.toRat) := by
  have hsize : (Scalar.ofUInt32 n : Float32) = ofNat n.toNat := rfl
  obtain ⟨b, hview, hone⟩ := exists_view_ofNat n.toNat_lt false
  rw [signed, if_neg Bool.false_ne_true] at hview
  exact ⟨b, hsize ▸ hview, fun hpos => hone (UInt32.lt_iff_toNat_lt.mp hpos)⟩

/-- A whole number turns into a finite number. -/
theorem exists_view_ofInt32 (n : Int32) :
    ∃ s b, view (Scalar.ofInt32 n : Float32) = .finite s b := by
  have hn : n.toInt.natAbs < 2 ^ 32 := by
    have hlow := n.le_toInt
    have hhigh := n.toInt_lt
    omega
  have hsize : (Scalar.ofInt32 n : Float32) = signed (n.toInt < 0) (ofNat n.toInt.natAbs) := rfl
  obtain ⟨b, hview, -⟩ := exists_view_ofNat hn (n.toInt < 0)
  exact ⟨_, b, hsize ▸ hview⟩

theorem view_one : view 1.0 = .finite false ⟨2 ^ 23, -23⟩ := by decide

/-! ## Quotients -/

/-- A finite number divided by one of at least one is finite. -/
theorem isFinite_div {x y : Float32} {s t : Bool} {a b : Binary} (hx : view x = .finite s a)
    (hy : view y = .finite t b) (hb : 1 ≤ b.toRat) : (x / y).isFinite = true := by
  have hbpos : 0 < b.mantissa := by
    rcases Nat.eq_zero_or_pos b.mantissa with hzero | hpos
    · rw [Binary.toRat, hzero, Nat.cast_zero, zero_mul] at hb
      exact absurd hb (by norm_num)
    · exact hpos
  rw [isFinite_iff]
  by_cases ha : a.mantissa = 0
  · have hfits : Fits ⟨0, -149⟩ := ⟨by decide, le_rfl, by decide, .inl rfl⟩
    exact ⟨_, _, zero_div_eq hx hy ha hbpos ▸ view_signed_of_fits hfits _⟩
  · have hapos := Nat.pos_of_ne_zero ha
    have hn : 0 < a.num * b.den := Nat.mul_pos (Binary.num_pos hapos) b.den_pos
    have hd : 0 < a.den * b.num := Nat.mul_pos a.den_pos (Binary.num_pos hbpos)
    have hrounded : (BinaryFormat.single.div a b).Rounded BinaryFormat.single :=
      BinaryFormat.nearest_rounded hn hd (by decide)
    have hover : BinaryFormat.single.overflows (BinaryFormat.single.div a b) = false := by
      refine BinaryFormat.overflows_nearest hn hd (by decide) ?_
      rw [Binary.div_toRat]
      exact (div_le_self (Binary.toRat_nonneg a) hb).trans
        (BinaryFormat.toRat_le_largest (fits_of_view hx))
    obtain ⟨c, hview, -⟩ := exists_view_signed hrounded hover (s != t)
    exact ⟨_, c, div_eq hx hy hapos hbpos ▸ hview⟩

end Skycam.Single
