import Mathlib.Data.List.TakeWhile
import Skycam.Number.Layout
import Skycam.Proofs.Number.Decimal

/-!
# Written decimals are read again

Digits stand for the number that they were made from, wherever the zeros at their ends go and
wherever the point stands among them. So the plain form of a decimal is a numeral whose value is
that of the decimal (`Decimal.spells_plain`), though its digits need not be the same.
-/

namespace Skycam

namespace Decimal

/-! ## The number of a list of digits -/

theorem ofDigits_eq (ds : List Char) : ofDigits ds = Nat.ofDigitChars 10 ds 0 :=
  Nat.ofDigitChars_eq_foldl.symm

theorem ofDigits_append (ds es : List Char) :
    ofDigits (ds ++ es) = ofDigits ds * 10 ^ es.length + ofDigits es := by
  simp only [ofDigits_eq]
  rw [Nat.ofDigitChars_append, Nat.ofDigitChars_eq_ofDigitChars_zero, Nat.mul_comm]

theorem ofDigits_zeros (n : ℕ) : ofDigits (List.replicate n '0') = 0 := by
  rw [ofDigits_eq, Nat.ofDigitChars_replicate_zero, Nat.mul_zero]

theorem ofDigits_toDigits (n : ℕ) : ofDigits (Nat.toDigits 10 n) = n := by
  rw [ofDigits_eq, Nat.ofDigitChars_ten_toDigits]

/-- Zeros at the front do not count. -/
theorem ofDigits_zeros_append (n : ℕ) (ds : List Char) :
    ofDigits (List.replicate n '0' ++ ds) = ofDigits ds := by
  rw [ofDigits_append, ofDigits_zeros, Nat.zero_mul, Nat.zero_add]

/-- Zeros at the end count as places. -/
theorem ofDigits_append_zeros (ds : List Char) (n : ℕ) :
    ofDigits (ds ++ List.replicate n '0') = ofDigits ds * 10 ^ n := by
  rw [ofDigits_append, ofDigits_zeros, List.length_replicate, Nat.add_zero]

/-! ## The digits of a decimal -/

/-- A list is what is left of it without the zeros at its end, followed by zeros. -/
theorem exists_zeros (ds : List Char) :
    ∃ n, ds = (ds.reverse.dropWhile (· == '0')).reverse ++ List.replicate n '0' := by
  have hzeros : ∀ c ∈ ds.reverse.takeWhile (· == '0'), c = '0' :=
    fun c hc => by simpa using List.mem_takeWhile_imp hc
  refine ⟨(ds.reverse.takeWhile (· == '0')).length, ?_⟩
  calc ds = (ds.reverse.takeWhile (· == '0') ++ ds.reverse.dropWhile (· == '0')).reverse := by
        rw [List.takeWhile_append_dropWhile, List.reverse_reverse]
    _ = _ := by
        rw [List.eq_replicate_of_mem hzeros, List.reverse_append, List.reverse_replicate,
          List.length_replicate]

theorem digits_ne_nil (d : Decimal) : d.digits.1 ≠ [] := by
  unfold digits
  dsimp only
  split
  · exact List.cons_ne_nil _ _
  · assumption

/-- Nothing but digits is in the digits of a decimal. -/
theorem isDigit_of_mem_digits {d : Decimal} {c : Char} (hc : c ∈ d.digits.1) :
    c.isDigit = true := by
  unfold digits at hc
  dsimp only at hc
  split at hc
  · rw [List.mem_singleton.mp hc]
    rfl
  · have hmem : c ∈ Nat.toDigits 10 d.coefficient := by
      rw [List.mem_reverse] at hc
      exact List.mem_reverse.mp ((List.dropWhile_sublist _).mem hc)
    exact Nat.isDigit_of_mem_toDigits (by norm_num) (by norm_num) hmem

/-- The digits of a decimal, with the point where it was, have its value. -/
theorem ofDigits_digits (d : Decimal) :
    (ofDigits d.digits.1 : ℚ) * 10 ^ (d.digits.2 - d.digits.1.length) = d.toRat := by
  obtain ⟨n, hall⟩ := exists_zeros (Nat.toDigits 10 d.coefficient)
  unfold digits
  dsimp only
  split
  · next hnil =>
    -- no digit is left, so all of them were zeros
    have hzero : d.coefficient = 0 := by
      rw [hnil, List.nil_append] at hall
      rw [← ofDigits_toDigits d.coefficient, hall, ofDigits_zeros]
    have hdigits : ofDigits ['0'] = 0 := rfl
    rw [toRat_eq_zero.mpr hzero, hdigits, Nat.cast_zero, zero_mul]
  · generalize (List.dropWhile _ _).reverse = kept at hall ⊢
    have hcoefficient : d.coefficient = ofDigits kept * 10 ^ n := by
      rw [← ofDigits_append_zeros, ← hall, ofDigits_toDigits]
    have hpoint : ((Nat.toDigits 10 d.coefficient).length + d.exponent - kept.length : ℤ) =
        n + d.exponent := by
      rw [hall, List.length_append, List.length_replicate]
      push_cast
      ring
    rw [hpoint, zpow_add₀ (by norm_num), zpow_natCast, toRat, hcoefficient]
    push_cast
    ring

end Decimal

/-! ## Reading digits around a point -/

namespace Numeral

/-- Whether a text is the plain spelling of a numeral: digits, and behind a point the digits of a
fraction. -/
structure Spells (n : Numeral) (cs : List Char) : Prop where
  /-- There is a digit before the point. -/
  whole_ne_nil : n.whole ≠ []
  /-- Before the point stand digits. -/
  isDigit_whole : ∀ c ∈ n.whole, c.isDigit = true
  /-- Behind the point stand digits. -/
  isDigit_fraction : ∀ c ∈ n.fraction, c.isDigit = true
  /-- There is no exponent. -/
  exponent_eq : n.exponent = 0
  /-- The text. -/
  chars : cs = n.whole ∧ n.fraction = [] ∨ cs = n.whole ++ '.' :: n.fraction

/-- Digits end where the first other character is. -/
theorem takeWhile_dropWhile_digits {whole : List Char} (h : ∀ c ∈ whole, c.isDigit = true)
    {rest : List Char} (hrest : ∀ c ∈ rest.head?, c.isDigit = false) :
    (whole ++ rest).takeWhile Char.isDigit = whole ∧
      (whole ++ rest).dropWhile Char.isDigit = rest := by
  rw [List.takeWhile_append_of_pos h, List.dropWhile_append_of_pos h]
  cases rest with
  | nil => simp
  | cons c rest =>
    have hc : c.isDigit = false := hrest c rfl
    simp [hc]

namespace Spells

variable {n : Numeral} {cs : List Char}

/-- What is spelled can be read. -/
theorem ofChars? (h : n.Spells cs) : Numeral.ofChars? cs = some n := by
  obtain ⟨whole, fraction, exponent⟩ := n
  obtain ⟨hne, hwhole, hfraction, rfl, hchars⟩ := h
  dsimp only at hne hwhole hfraction hchars
  rcases hchars with ⟨rfl, rfl⟩ | rfl
  · obtain ⟨htake, hdrop⟩ := takeWhile_dropWhile_digits hwhole (by simp : ∀ c ∈ [].head?, _)
    rw [List.append_nil] at htake hdrop
    simp [Numeral.ofChars?, htake, hdrop, hne]
  · obtain ⟨htake, hdrop⟩ := takeWhile_dropWhile_digits hwhole
      (by simp : ∀ c ∈ ('.' :: fraction).head?, _)
    obtain ⟨hmore, hrest⟩ := takeWhile_dropWhile_digits hfraction (by simp : ∀ c ∈ [].head?, _)
    rw [List.append_nil] at hmore hrest
    simp [Numeral.ofChars?, htake, hdrop, hmore, hrest, hne]

/-- A plain spelling has nothing in it but digits and a point. -/
theorem isDigit_of_mem (h : n.Spells cs) {c : Char} (hc : c ∈ cs) : c.isDigit = true ∨ c = '.' := by
  rcases h.chars with ⟨rfl, -⟩ | rfl
  · exact .inl (h.isDigit_whole c hc)
  · rcases List.mem_append.mp hc with hwhole | hmore
    · exact .inl (h.isDigit_whole c hwhole)
    · rcases List.mem_cons.mp hmore with hpoint | hfraction
      · exact .inr hpoint
      · exact .inl (h.isDigit_fraction c hfraction)

/-- A spelling begins with a digit. -/
theorem exists_cons (h : n.Spells cs) : ∃ c rest, cs = c :: rest ∧ c.isDigit = true := by
  obtain ⟨c, more, hwhole⟩ := List.exists_cons_of_ne_nil h.whole_ne_nil
  have hc : c.isDigit = true := h.isDigit_whole c (hwhole ▸ List.mem_cons_self)
  rcases h.chars with ⟨rfl, -⟩ | rfl
  · exact ⟨c, more, hwhole, hc⟩
  · exact ⟨c, _, congrArg (· ++ _) hwhole, hc⟩

end Spells

end Numeral

namespace Decimal

variable {ds : List Char}

/-- Digits written with their point are a numeral with their value. -/
theorem spells_positional (hne : ds ≠ []) (h : ∀ c ∈ ds, c.isDigit = true) (point : ℤ) :
    ∃ n : Numeral, n.Spells (positional [] ds point) ∧
      n.value.toRat = ofDigits ds * 10 ^ (point - ds.length) := by
  have hzeros : ∀ n, ∀ c ∈ List.replicate n '0', c.isDigit = true := by
    intro n c hc
    rw [List.eq_of_mem_replicate hc]
    rfl
  unfold positional
  split
  · next hpoint =>
    -- all digits stand behind the point, zeros first
    refine ⟨⟨['0'], List.replicate (-point).toNat '0' ++ ds, 0⟩,
      ⟨List.cons_ne_nil _ _, hzeros 1, ?_, rfl, .inr rfl⟩, ?_⟩
    · intro c hc
      rcases List.mem_append.mp hc with hzero | hdigit
      · exact hzeros _ c hzero
      · exact h c hdigit
    · have hvalue : ofDigits (['0'] ++ (List.replicate (-point).toNat '0' ++ ds)) = ofDigits ds :=
        (ofDigits_zeros_append 1 _).trans (ofDigits_zeros_append _ ds)
      simp only [Numeral.value, toRat, hvalue, List.length_append, List.length_replicate]
      congr 2
      omega
  · split
    · next hwhole =>
      -- all digits stand before the point, zeros last
      refine ⟨⟨ds ++ List.replicate (point - ds.length).toNat '0', [], 0⟩,
        ⟨by simp [hne], ?_, by simp, rfl, .inl ⟨List.append_nil _, rfl⟩⟩, ?_⟩
      · intro c hc
        rcases List.mem_append.mp hc with hdigit | hzero
        · exact h c hdigit
        · exact hzeros _ c hzero
      · obtain ⟨k, hk⟩ : ∃ k : ℕ, point - ds.length = k := ⟨(point - ds.length).toNat, by omega⟩
        simp only [Numeral.value, toRat, List.append_nil, ofDigits_append_zeros, hk, zpow_natCast]
        simp
    · next hpoint hwhole =>
      have hfront : point.toNat ≠ 0 := by omega
      refine ⟨⟨ds.take point.toNat, ds.drop point.toNat, 0⟩,
        ⟨by simp [List.take_eq_nil_iff, hfront, hne], fun c hc => h c (List.mem_of_mem_take hc),
          fun c hc => h c (List.mem_of_mem_drop hc), rfl, .inr rfl⟩, ?_⟩
      simp only [Numeral.value, toRat, List.take_append_drop, List.length_drop]
      congr 2
      omega

/-- The plain form of a decimal is a numeral with its value. -/
theorem spells_plain (d : Decimal) :
    ∃ n : Numeral, n.Spells d.plain ∧ n.value.toRat = d.toRat := by
  obtain ⟨n, hspells, hvalue⟩ :=
    spells_positional d.digits_ne_nil (fun _ => isDigit_of_mem_digits) d.digits.2
  exact ⟨n, hspells, hvalue.trans d.ofDigits_digits⟩

end Decimal

end Skycam
