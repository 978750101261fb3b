import Skycam.Json.Decode
import Skycam.Proofs.Json.Pretty
import Skycam.Proofs.Number.Digits

/-!
# Literals of JSON numbers

The JSON form of a decimal is a literal of the grammar and a numeral with the value of the decimal
(`Decimal.spells_json`). It never is the literal of an integer, so it is read by way of double
precision; and all its digits fit a double word, so what is scaled there is its value.
-/

namespace Skycam

/-! ## Digits of an integer -/

namespace Decimal

/-- The digits of a positive number do not begin with a zero. -/
theorem toDigits_eq_cons {n : ℕ} (hn : 0 < n) :
    ∃ c rest, Nat.toDigits 10 n = c :: rest ∧ c ≠ '0' := by
  induction n using Nat.strongRecOn with
  | ind n ih =>
    by_cases hsmall : n < 10
    · refine ⟨n.digitChar, [], Nat.toDigits_of_lt_base hsmall, ?_⟩
      have hall : ∀ n < 10, 0 < n → n.digitChar ≠ '0' := by decide
      exact hall n hsmall hn
    · obtain ⟨c, rest, hdigits, hc⟩ := ih (n / 10) (by omega) (by omega)
      refine ⟨c, rest ++ Nat.toDigits 10 (n % 10), ?_, hc⟩
      have happend := Nat.toDigits_append_toDigits (b := 10) (n := n / 10) (d := n % 10)
        (by norm_num) (by omega) (Nat.mod_lt _ (by norm_num))
      rw [Nat.div_add_mod] at happend
      rw [← happend, hdigits]
      rfl

theorem isDigit_of_mem_toDigits {n : ℕ} {c : Char} (hc : c ∈ Nat.toDigits 10 n) :
    c.isDigit = true :=
  Nat.isDigit_of_mem_toDigits (by norm_num) (by norm_num) hc

/-- Digits stand for less than the power of ten with as many zeros. -/
theorem ofDigits_lt {ds : List Char} (h : ∀ c ∈ ds, c.isDigit = true) :
    ofDigits ds < 10 ^ ds.length := by
  induction ds using List.reverseRecOn with
  | nil => decide
  | append_singleton ds c ih =>
    have hc := Char.isDigit_iff_toNat.mp (h c (by simp))
    have hds := ih fun d hd => h d (List.mem_append_left _ hd)
    have hlast : ofDigits [c] = c.toNat - '0'.toNat := by simp [ofDigits, pushDigit]
    have hzero : '0'.toNat = 48 := rfl
    have hnine : '9'.toNat = 57 := rfl
    rw [ofDigits_append, hlast, List.length_append, List.length_singleton, pow_one, pow_succ]
    omega

/-- The digits of a decimal that is not zero do not begin with a zero; some may have been taken from
their end. -/
theorem digits_spec {d : Decimal} (hd : 0 < d.coefficient) :
    ∃ c rest, ∃ zeros : ℕ, d.digits.1 = c :: rest ∧ c ≠ '0' ∧
      digitCount d.coefficient = d.digits.1.length + zeros ∧
      d.digits.2 = digitCount d.coefficient + d.exponent := by
  obtain ⟨zeros, hall⟩ := exists_zeros (Nat.toDigits 10 d.coefficient)
  obtain ⟨c, rest, hcons, hc⟩ := toDigits_eq_cons hd
  unfold digits digitCount
  dsimp only
  split
  · next hnil =>
    have hcoefficient := ofDigits_toDigits d.coefficient
    rw [hnil, List.nil_append] at hall
    rw [hall, ofDigits_zeros] at hcoefficient
    omega
  · next hne =>
    generalize (List.dropWhile _ _).reverse = kept at hall hne ⊢
    obtain ⟨c', rest', rfl⟩ := List.exists_cons_of_ne_nil hne
    rw [hall] at hcons ⊢
    refine ⟨c', rest', zeros, rfl, ?_, ?_, rfl⟩
    · rw [(List.cons.inj hcons).1]
      exact hc
    · rw [List.length_append, List.length_replicate]

end Decimal

/-! ## The grammar -/

namespace Json

theorem readDigits_digits {ds tail : List Char} (hne : ds ≠ []) (h : ∀ c ∈ ds, c.isDigit = true)
    (htail : ∀ c ∈ tail.head?, c.isDigit = false) : readDigits (ds ++ tail) = some (ds, tail) := by
  obtain ⟨htake, hdrop⟩ := Numeral.takeWhile_dropWhile_digits h htail
  simp [readDigits, htake, hdrop, hne]

theorem readDigits_toDigits (n : ℕ) :
    readDigits (Nat.toDigits 10 n) = some (Nat.toDigits 10 n, []) := by
  have hne : Nat.toDigits 10 n ≠ [] := List.ne_nil_of_length_pos Nat.length_toDigits_pos
  have hnone : ∀ c ∈ [].head?, Char.isDigit c = false := by simp
  have hdigits := readDigits_digits hne (fun c hc => Decimal.isDigit_of_mem_toDigits hc) hnone
  rwa [List.append_nil] at hdigits

end Json

namespace Numeral

/-- A fraction with its point, if it has a digit. -/
def pointed (fraction : List Char) : List Char :=
  if fraction = [] then [] else '.' :: fraction

/-- Whether a text is a JSON spelling of a numeral that is not an integer: digits without a leading
zero, a fraction, and an exponent that may only be missing behind a fraction. -/
structure SpellsJson (n : Numeral) (cs : List Char) : Prop where
  /-- There is a digit before the point, and a zero stands there alone. -/
  whole : ∃ c rest, n.whole = c :: rest ∧ (c = '0' → rest = [])
  /-- Before the point stand digits. -/
  isDigit_whole : ∀ c ∈ n.whole, c.isDigit = true
  /-- Behind the point stand digits. -/
  isDigit_fraction : ∀ c ∈ n.fraction, c.isDigit = true
  /-- The text. -/
  chars : ∃ tail, cs = n.whole ++ (pointed n.fraction ++ tail) ∧
    (tail = [] ∧ n.exponent = 0 ∧ n.fraction ≠ [] ∨
      tail = 'e' :: Decimal.jsonExponent n.exponent)

/-- An exponent is read as it is written. -/
theorem exponent?_jsonExponent (e : ℤ) : exponent? (Decimal.jsonExponent e) = some e := by
  have hne : Nat.toDigits 10 e.natAbs ≠ [] := List.ne_nil_of_length_pos Nat.length_toDigits_pos
  have hall : (Nat.toDigits 10 e.natAbs).all Char.isDigit = true :=
    List.all_eq_true.mpr fun c hc => Decimal.isDigit_of_mem_toDigits hc
  unfold Decimal.jsonExponent
  by_cases he : e < 0
  · simp [exponent?, he, hne, hall, Decimal.ofDigits_toDigits, abs_of_neg he]
  · simp [exponent?, he, hne, hall, Decimal.ofDigits_toDigits, not_lt.mp he]

namespace SpellsJson

open Json

variable {n : Numeral} {cs tail : List Char}

/-- The whole part of a spelling is read up to its point or exponent. -/
theorem readWhole_append (h : n.SpellsJson cs) (htail : ∀ c ∈ tail.head?, c.isDigit = false) :
    readWhole (n.whole ++ tail) = some (n.whole, tail) := by
  obtain ⟨c, rest, hwhole, hzero⟩ := h.whole
  have hdigits := readDigits_digits (hwhole ▸ List.cons_ne_nil c rest) h.isDigit_whole htail
  rw [hwhole] at hdigits ⊢
  by_cases hc : c = '0'
  · rw [hc, hzero hc]
    rfl
  · simpa [readWhole, hc] using hdigits

/-- The fraction of a spelling is read up to its exponent. -/
theorem readFraction_append (h : n.SpellsJson cs)
    (htail : ∀ c ∈ tail.head?, c.isDigit = false ∧ c ≠ '.') :
    readFraction (pointed n.fraction ++ tail) = some (pointed n.fraction, tail) := by
  unfold pointed
  split
  · cases tail with
    | nil => rfl
    | cons c tail => simp [readFraction, (htail c rfl).2]
  · next hne =>
    simp [readFraction,
      readDigits_digits hne h.isDigit_fraction fun c hc => (htail c hc).1]

theorem readExponent_json (e : ℤ) :
    readExponent ('e' :: Decimal.jsonExponent e) = some ('e' :: Decimal.jsonExponent e, []) := by
  unfold Decimal.jsonExponent
  by_cases he : e < 0
  · simp [readExponent, he, readDigits_toDigits]
  · simp [readExponent, he, readDigits_toDigits]

/-- What stands behind the digits: nothing, or an exponent. -/
theorem exists_tail (h : n.SpellsJson cs) :
    ∃ tail, cs = n.whole ++ (pointed n.fraction ++ tail) ∧
      (∀ c ∈ tail.head?, c.isDigit = false ∧ c ≠ '.') ∧
      (∀ c ∈ (pointed n.fraction ++ tail).head?, c.isDigit = false) ∧
      (tail = [] ∧ n.exponent = 0 ∧ n.fraction ≠ [] ∨
        tail = 'e' :: Decimal.jsonExponent n.exponent) := by
  obtain ⟨tail, hcs, htail⟩ := h.chars
  have hhead : ∀ c ∈ tail.head?, c.isDigit = false ∧ c ≠ '.' := by
    rcases htail with ⟨rfl, -⟩ | rfl
    · simp
    · simp
  refine ⟨tail, hcs, hhead, ?_, htail⟩
  unfold pointed
  split
  · exact fun c hc => (hhead c hc).1
  · simp

/-- The first character is a digit. -/
theorem exists_cons (h : n.SpellsJson cs) : ∃ c rest, cs = c :: rest ∧ c.isDigit = true := by
  obtain ⟨tail, rfl, -⟩ := h.chars
  obtain ⟨c, rest, hwhole, -⟩ := h.whole
  exact ⟨c, _, congrArg (· ++ _) hwhole, h.isDigit_whole c (hwhole ▸ List.mem_cons_self)⟩

theorem ne_minus (h : n.SpellsJson cs) (rest : List Char) : cs ≠ '-' :: rest := by
  obtain ⟨c, more, rfl, hc⟩ := h.exists_cons
  intro heq
  rw [(List.cons.inj heq).1] at hc
  exact absurd hc (by decide)

/-- The text is a literal of the grammar under either sign. -/
theorem isLiteral (h : n.SpellsJson cs) (negative : Bool) :
    IsLiteral ((if negative then ['-'] else []) ++ cs) := by
  obtain ⟨tail, hcs, hhead, hbehind, htail⟩ := h.exists_tail
  have hwhole := h.readWhole_append hbehind
  have hfraction := h.readFraction_append hhead
  have hexponent : readExponent tail = some (tail, []) := by
    rcases htail with ⟨rfl, -⟩ | rfl
    · rfl
    · exact readExponent_json _
  rw [← hcs] at hwhole
  cases negative with
  | false =>
    -- the reader finds no sign in front of the digits
    have hminus := h.ne_minus
    simp [IsLiteral, readNumber, hwhole, hfraction, hexponent]
    exact hcs.symm
  | true =>
    simp [IsLiteral, readNumber, hwhole, hfraction, hexponent]
    exact hcs.symm

/-- A number that is spelled as a literal can be read. -/
theorem ofChars? (h : n.SpellsJson cs) : Numeral.ofChars? cs = some n := by
  obtain ⟨tail, hcs, hhead, hbehind, htail⟩ := h.exists_tail
  obtain ⟨htake, hdrop⟩ := takeWhile_dropWhile_digits h.isDigit_whole hbehind
  obtain ⟨hmore, hrest⟩ := takeWhile_dropWhile_digits h.isDigit_fraction
    fun c hc => (hhead c hc).1
  have hne : n.whole ≠ [] := by
    obtain ⟨c, rest, hwhole, -⟩ := h.whole
    exact hwhole ▸ List.cons_ne_nil c rest
  obtain ⟨whole, fraction, exponent⟩ := n
  rw [hcs]
  dsimp only at htail htake hdrop hmore hrest hne ⊢
  by_cases hfraction : fraction = []
  · rcases htail with ⟨-, -, hsome⟩ | rfl
    · exact absurd hfraction hsome
    · subst hfraction
      simp only [pointed, if_true, List.nil_append] at htake hdrop ⊢
      simp [Numeral.ofChars?, htake, hdrop, hne, exponent?_jsonExponent]
  · simp only [pointed, hfraction, if_false, List.cons_append] at htake hdrop ⊢
    rcases htail with ⟨rfl, rfl, -⟩ | rfl
    · rw [List.append_nil] at htake hdrop hmore hrest ⊢
      simp [Numeral.ofChars?, htake, hdrop, hmore, hrest, hne]
    · simp [Numeral.ofChars?, htake, hdrop, hmore, hrest, hne, exponent?_jsonExponent]

/-- The sign of a literal is split off. -/
theorem splitLiteral (h : n.SpellsJson cs) (negative : Bool) :
    Value.splitLiteral ((if negative then ['-'] else []) ++ cs) = (negative, cs) := by
  cases negative with
  | false =>
    have hminus := h.ne_minus
    simp [Value.splitLiteral]
  | true => rfl

/-- The text is not the literal of an integer. -/
theorem literalInt?_eq_none (h : n.SpellsJson cs) (negative : Bool) :
    Value.literalInt? ((if negative then ['-'] else []) ++ cs) = none := by
  have hall : cs.all Char.isDigit = false := by
    obtain ⟨tail, rfl, -, -, htail⟩ := h.exists_tail
    rcases htail with ⟨rfl, -, hfraction⟩ | rfl
    · simp [pointed, hfraction]
    · simp
  simp [Value.literalInt?, h.splitLiteral, hall]

/-- The text is read by scaling its leading digits. -/
theorem literalSingle?_eq (h : n.SpellsJson cs) (negative : Bool) :
    Value.literalSingle? ((if negative then ['-'] else []) ++ cs) =
      (Single.ofScaled n.leading).map (Single.signed negative) := by
  simp [Value.literalSingle?, Value.literalScaled?, h.literalInt?_eq_none, h.splitLiteral,
    h.ofChars?, Option.map_eq_bind]

end SpellsJson

/-! ## Leading digits -/

/-- Digits that fit into a word are all taken into it. -/
theorem fillWord_eq {n : ℕ} {ds : List Char} (h : ds.foldl Decimal.pushDigit n < UInt64.size) :
    fillWord n ds = (ds.foldl Decimal.pushDigit n, []) := by
  induction ds generalizing n with
  | nil => rfl
  | cons d ds ih =>
    have hgrow : ∀ (ds : List Char) (n : ℕ), n ≤ ds.foldl Decimal.pushDigit n := by
      intro ds
      induction ds with
      | nil => exact fun n => le_rfl
      | cons d ds ih =>
        intro n
        refine le_trans ?_ (ih (Decimal.pushDigit n d))
        unfold Decimal.pushDigit
        omega
    have hfits : Decimal.pushDigit n d < UInt64.size := (hgrow ds _).trans_lt h
    rw [fillWord]
    simp only [hfits, if_true]
    exact ih h

/-- When all digits fit a double word, what they denote is the value. -/
theorem leading_eq_value {n : Numeral} (h : n.value.coefficient < UInt64.size) :
    n.leading = n.value := by
  have hall : Decimal.ofDigits (n.whole ++ n.fraction) < UInt64.size := h
  have hsplit : n.fraction.foldl Decimal.pushDigit (Decimal.ofDigits n.whole) =
      Decimal.ofDigits (n.whole ++ n.fraction) := by
    rw [Decimal.ofDigits, Decimal.ofDigits, List.foldl_append]
  have hwhole : Decimal.ofDigits n.whole < UInt64.size := by
    rw [Decimal.ofDigits_append] at hall
    have hpos : 0 < 10 ^ n.fraction.length := by positivity
    nlinarith
  have hfirst : fillWord 0 n.whole = (Decimal.ofDigits n.whole, []) := fillWord_eq hwhole
  have hsecond : fillWord (Decimal.ofDigits n.whole) n.fraction =
      (Decimal.ofDigits (n.whole ++ n.fraction), []) := by
    rw [fillWord_eq (hsplit ▸ hall), hsplit]
  simp [leading, value, hfirst, hsecond]

end Numeral

/-! ## The JSON form of a decimal -/

namespace Decimal

/-- Whether a text is a JSON spelling of a numeral with a given value, the digits of which fit a
mantissa of double precision and the exponent of which is small. -/
def SpellsShort (cs : List Char) (value : ℚ) : Prop :=
  ∃ n : Numeral, n.SpellsJson cs ∧ n.value.toRat = value ∧ n.value.coefficient < 2 ^ 53 ∧
    -64 ≤ n.value.exponent ∧ n.value.exponent ≤ 50

theorem isDigit_of_mem_zeros {n : ℕ} {c : Char} (hc : c ∈ List.replicate n '0') :
    c.isDigit = true := by
  rw [List.eq_of_mem_replicate hc]
  rfl

section Json

variable {c : Char} {rest : List Char} {point : ℤ}

theorem ofDigits_lt_of_length_le {ds : List Char} {k : ℕ} (h : ∀ c ∈ ds, c.isDigit = true)
    (hlength : ds.length ≤ k) : ofDigits ds < 10 ^ k :=
  (ofDigits_lt h).trans_le (Nat.pow_le_pow_right (by norm_num) hlength)

/-- All digits stand behind the point, zeros first. -/
theorem spellsShort_behind {ds : List Char} (h : ∀ d ∈ ds, d.isDigit = true) (hne : ds ≠ [])
    (hlength : ds.length ≤ 10) (hlow : -5 ≤ point) (hpoint : point ≤ 0) :
    SpellsShort ("0.".toList ++ List.replicate (-point).toNat '0' ++ ds)
      (ofDigits ds * 10 ^ (point - ds.length)) := by
  have hsmall := ofDigits_lt_of_length_le h hlength
  have hvalue : ofDigits (['0'] ++ (List.replicate (-point).toNat '0' ++ ds)) = ofDigits ds :=
    (ofDigits_zeros_append 1 _).trans (ofDigits_zeros_append _ ds)
  have hexponent : (0 : ℤ) - (List.replicate (-point).toNat '0' ++ ds).length =
      point - ds.length := by
    rw [List.length_append, List.length_replicate]
    omega
  refine ⟨⟨['0'], List.replicate (-point).toNat '0' ++ ds, 0⟩,
    ⟨⟨'0', [], rfl, fun _ => rfl⟩, fun d hd => isDigit_of_mem_zeros (n := 1) hd, ?_, [], ?_,
      .inl ⟨rfl, rfl, ?_⟩⟩, ?_, ?_, ?_, ?_⟩
  · exact List.forall_mem_append.mpr ⟨fun d hd => isDigit_of_mem_zeros hd, h⟩
  · simp [Numeral.pointed, hne]
  · simp [hne]
  · simp only [Numeral.value, toRat, hvalue, hexponent]
  · simp only [Numeral.value, hvalue]
    omega
  · simp only [Numeral.value, hexponent]
    omega
  · simp only [Numeral.value, hexponent]
    omega

/-- All digits stand before the point, zeros last, and one more zero behind it. -/
theorem spellsShort_before {k : ℕ} (h : ∀ d ∈ c :: rest, d.isDigit = true)
    (hzero : c = '0' → rest = [] ∧ k = 0) (hlength : (c :: rest).length + k ≤ 13) :
    SpellsShort (c :: rest ++ List.replicate k '0' ++ ".0".toList)
      (ofDigits (c :: rest) * 10 ^ (k : ℤ)) := by
  have hvalue : ofDigits (c :: rest ++ List.replicate k '0' ++ ['0']) =
      ofDigits (c :: rest) * 10 ^ (k + 1) := by
    rw [pow_succ, ← mul_assoc, ← ofDigits_append_zeros]
    exact ofDigits_append_zeros _ 1
  have hbound : ofDigits (c :: rest) * 10 ^ (k + 1) < 2 ^ 53 := by
    have hdigits := ofDigits_lt h
    calc ofDigits (c :: rest) * 10 ^ (k + 1) ≤ 10 ^ (c :: rest).length * 10 ^ (k + 1) := by gcongr
      _ = 10 ^ ((c :: rest).length + (k + 1)) := (pow_add _ _ _).symm
      _ ≤ 10 ^ 14 := Nat.pow_le_pow_right (by norm_num) (by omega)
      _ < 2 ^ 53 := by norm_num
  refine ⟨⟨c :: rest ++ List.replicate k '0', ['0'], 0⟩,
    ⟨⟨c, rest ++ List.replicate k '0', rfl, ?_⟩, ?_,
      fun d hd => isDigit_of_mem_zeros (n := 1) hd, [], ?_, .inl ⟨rfl, rfl, ?_⟩⟩, ?_, ?_, ?_, ?_⟩
  · intro hc
    obtain ⟨rfl, rfl⟩ := hzero hc
    rfl
  · exact List.forall_mem_append.mpr ⟨h, fun d hd => isDigit_of_mem_zeros hd⟩
  · simp [Numeral.pointed]
  · exact List.cons_ne_nil _ _
  · simp only [Numeral.value, toRat, hvalue, zpow_natCast, List.length_singleton]
    push_cast
    rw [pow_succ]
    field_simp
  · simp only [Numeral.value, hvalue]
    exact hbound
  · simp [Numeral.value]
  · simp [Numeral.value]

/-- The point stands among the digits. -/
theorem spellsShort_among {k : ℕ} (h : ∀ d ∈ c :: rest, d.isDigit = true)
    (hzero : c = '0' → rest = []) (hlength : (c :: rest).length ≤ 10) (hk : k < rest.length) :
    SpellsShort ((c :: rest).take (k + 1) ++ '.' :: (c :: rest).drop (k + 1))
      (ofDigits (c :: rest) * 10 ^ ((k + 1 : ℤ) - (c :: rest).length)) := by
  have hsmall := ofDigits_lt_of_length_le h hlength
  have hcount : (c :: rest).length = rest.length + 1 := List.length_cons
  have hmore : rest.drop k ≠ [] := by
    rw [ne_eq, List.drop_eq_nil_iff]
    omega
  have hexponent : (0 : ℤ) - ((c :: rest).drop (k + 1)).length = k + 1 - (c :: rest).length := by
    rw [List.length_drop]
    omega
  refine ⟨⟨(c :: rest).take (k + 1), (c :: rest).drop (k + 1), 0⟩,
    ⟨⟨c, rest.take k, rfl, ?_⟩, fun d hd => h d (List.mem_of_mem_take hd),
      fun d hd => h d (List.mem_of_mem_drop hd), [], ?_, .inl ⟨rfl, rfl, hmore⟩⟩, ?_, ?_, ?_, ?_⟩
  · intro hc
    rw [hzero hc, List.take_nil]
  · simp [Numeral.pointed, hmore]
  · simp only [Numeral.value, toRat, List.take_append_drop, hexponent]
  · simp only [Numeral.value, List.take_append_drop]
    omega
  · simp only [Numeral.value, hexponent]
    omega
  · simp only [Numeral.value, hexponent]
    omega

/-- Digits with their point among or beside them. -/
theorem spellsShort_positional (h : ∀ d ∈ c :: rest, d.isDigit = true)
    (hzero : c = '0' → rest = [] ∧ point = 1) (hlength : (c :: rest).length ≤ 10)
    (hlow : -6 ≤ point - 1) (hhigh : point - 1 ≤ 12) :
    SpellsShort (positional ".0".toList (c :: rest) point)
      (ofDigits (c :: rest) * 10 ^ (point - (c :: rest).length)) := by
  unfold positional
  split
  · next hpoint =>
    exact spellsShort_behind h (List.cons_ne_nil c rest) hlength (by omega) hpoint
  split
  · next hpoint hwhole =>
    obtain ⟨k, hk⟩ : ∃ k : ℕ, point - (c :: rest).length = k :=
      ⟨(point - (c :: rest).length).toNat, by omega⟩
    rw [hk, Int.toNat_natCast]
    refine spellsShort_before h ?_ (by omega)
    intro hc
    obtain ⟨rfl, rfl⟩ := hzero hc
    rw [List.length_singleton] at hk
    exact ⟨rfl, by omega⟩
  · next hpoint hwhole =>
    obtain ⟨k, rfl⟩ : ∃ k : ℕ, point = k + 1 := ⟨(point - 1).toNat, by omega⟩
    have hk : ((k : ℤ) + 1).toNat = k + 1 := by omega
    rw [hk]
    rw [List.length_cons] at hwhole
    exact spellsShort_among h (fun hc => (hzero hc).1) hlength (by omega)

/-- One digit before the point, and an exponent. -/
theorem spellsShort_exponential (h : ∀ d ∈ c :: rest, d.isDigit = true)
    (hlength : (c :: rest).length ≤ 10) (hlow : -64 ≤ point - (c :: rest).length)
    (hhigh : point - (c :: rest).length ≤ 50) :
    SpellsShort ((if (c :: rest).length = 1 then c :: rest
        else (c :: rest).take 1 ++ '.' :: (c :: rest).drop 1) ++ 'e' :: jsonExponent (point - 1))
      (ofDigits (c :: rest) * 10 ^ (point - (c :: rest).length)) := by
  have hsmall := ofDigits_lt_of_length_le h hlength
  have hexponent : point - 1 - rest.length = point - (c :: rest).length := by
    rw [List.length_cons]
    omega
  obtain ⟨hc, hrest⟩ := List.forall_mem_cons.mp h
  refine ⟨⟨[c], rest, point - 1⟩,
    ⟨⟨c, [], rfl, fun _ => rfl⟩, by simpa using hc, hrest, _, ?_, .inr rfl⟩, ?_, ?_, ?_, ?_⟩
  · cases rest with
    | nil => rfl
    | cons d rest => simp [Numeral.pointed]
  · simp only [Numeral.value, toRat, List.singleton_append, hexponent]
  · simp only [Numeral.value, List.singleton_append]
    omega
  · simp only [Numeral.value, hexponent]
    exact hlow
  · simp only [Numeral.value, hexponent]
    exact hhigh

end Json

/-- The JSON form of a decimal of at most nine digits is a numeral with its value, and what is
scaled there is not too long. -/
theorem spells_json {d : Decimal} (hcoefficient : d.coefficient ≤ 10 ^ 9)
    (hlow : -60 ≤ d.exponent) (hhigh : d.exponent ≤ 40) :
    SpellsShort d.json d.toRat := by
  have hvalue := d.ofDigits_digits
  have hall : ∀ c ∈ d.digits.1, c.isDigit = true := fun c hc => isDigit_of_mem_digits hc
  have hjson : d.json =
      if -6 ≤ d.digits.2 - 1 ∧ d.digits.2 - 1 ≤ 12 then positional ".0".toList d.digits.1 d.digits.2
      else (if d.digits.1.length = 1 then d.digits.1
        else d.digits.1.take 1 ++ '.' :: d.digits.1.drop 1) ++
          'e' :: jsonExponent (d.digits.2 - 1) := rfl
  obtain ⟨c, rest, hcons, hzero, hlength, hmin, hmax⟩ : ∃ c rest, d.digits.1 = c :: rest ∧
      (c = '0' → rest = [] ∧ d.digits.2 = 1) ∧ (c :: rest).length ≤ 10 ∧
      -64 ≤ d.digits.2 - (c :: rest).length ∧ d.digits.2 - (c :: rest).length ≤ 50 := by
    by_cases hd : d.coefficient = 0
    · have hdigits : d.digits = (['0'], 1) := by simp [digits, hd]
      rw [hdigits]
      exact ⟨'0', [], rfl, fun _ => ⟨rfl, rfl⟩, by decide, by decide, by decide⟩
    · obtain ⟨c, rest, zeros, hcons, hc, hcount, hpoint⟩ := digits_spec (Nat.pos_of_ne_zero hd)
      have hten : digitCount d.coefficient ≤ 10 :=
        (Nat.length_toDigits_le_iff (by norm_num) (by norm_num)).mpr (by omega)
      rw [hcons] at hcount
      exact ⟨c, rest, hcons, fun h => absurd h hc, by omega, by omega, by omega⟩
  rw [hcons] at hvalue hall hjson
  rw [hjson, ← hvalue]
  split
  · next hpoint => exact spellsShort_positional hall hzero hlength hpoint.1 hpoint.2
  · exact spellsShort_exponential hall hlength hmin hmax

end Decimal

end Skycam
