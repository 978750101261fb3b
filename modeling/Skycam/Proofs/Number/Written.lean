import Skycam.Proofs.Number.Bits
import Skycam.Proofs.Number.Digits

/-!
# Written numbers are read again

The plain form of a finite number is its sign before the digits of a decimal, and reading it gives
the number back, its sign included (`finiteOfChars?_plain`). Nothing else than digits, a sign and a
point stands in it.
-/

namespace Skycam.Single

variable {n : Numeral} {cs : List Char}

theorem toNat_le_of_isDigit {c : Char} (h : c.isDigit = true) : c.toNat ≤ 57 :=
  (Char.isDigit_iff_toNat.mp h).2

/-- A digit is no capital letter. -/
theorem toLower_of_isDigit {c : Char} (h : c.isDigit = true) : c.toLower = c := by
  have hle := toNat_le_of_isDigit h
  unfold Char.toLower
  rw [dif_neg]
  rintro ⟨hcapital, -⟩
  have hge : 65 ≤ c.toNat := UInt32.le_iff_toNat_le.mp hcapital
  omega

/-- What begins with a digit is no name. -/
theorem lowerAscii_ne_of_isDigit {c d : Char} (h : c.isDigit = true) (hd : 57 < d.toNat)
    (rest name : List Char) : Text.lowerAscii (c :: rest) ≠ d :: name := by
  have hle := toNat_le_of_isDigit h
  rw [Text.lowerAscii, List.map_cons, toLower_of_isDigit h]
  intro heq
  rw [(List.cons.inj heq).1] at hle
  omega

/-- A sign before digits is split off, and only a sign. -/
theorem splitSign_digits {c : Char} (h : c.isDigit = true) (negative : Bool) (rest : List Char) :
    splitSign ((if negative then ['-'] else []) ++ c :: rest) = (negative, c :: rest) := by
  cases negative with
  | true => rfl
  | false =>
    have hminus : c ≠ '-' := by
      rintro rfl
      exact absurd h (by decide)
    have hplus : c ≠ '+' := by
      rintro rfl
      exact absurd h (by decide)
    show splitSign (c :: rest) = (false, c :: rest)
    unfold splitSign
    split
    · next heq => exact absurd (List.cons.inj heq).1 hminus
    · next heq => exact absurd (List.cons.inj heq).1 hplus
    · rfl

/-- A number is read from its sign and its spelling. -/
theorem ofChars?_spelling (h : n.Spells cs) (negative : Bool) :
    ofChars? ((if negative then ['-'] else []) ++ cs) =
      some (signed negative (ofDecimal n.value)) := by
  have hread := h.ofChars?
  obtain ⟨c, rest, rfl, hc⟩ := h.exists_cons
  have hinf : Text.lowerAscii (c :: rest) ≠ "inf".toList :=
    lowerAscii_ne_of_isDigit hc (by decide) _ _
  have hinfinity : Text.lowerAscii (c :: rest) ≠ "infinity".toList :=
    lowerAscii_ne_of_isDigit hc (by decide) _ _
  have hnan : Text.lowerAscii (c :: rest) ≠ "nan".toList :=
    lowerAscii_ne_of_isDigit hc (by decide) _ _
  simp only [ofChars?, splitSign_digits hc, hinf, hinfinity, hnan, or_self, if_false, hread,
    Option.map_some]

/-- The text of a finite number. -/
theorem toList_plain {x : Float32} {negative : Bool} {b : Binary}
    (h : view x = .finite negative b) :
    (plain x).toList = (if negative then ['-'] else []) ++ (shortest .up b).plain := by
  simp only [plain, spell, h, String.toList_ofList]

/-- The plain form of a finite number is read as the number. -/
theorem finiteOfChars?_plain {x : Float32} (h : x.isFinite = true) :
    finiteOfChars? (plain x).toList = some x := by
  obtain ⟨negative, b, hview⟩ := isFinite_iff.mp h
  obtain ⟨n, hspells, hvalue⟩ := (shortest .up b).spells_plain
  have hdecimal : ofDecimal n.value = ofBinary b := by
    rw [ofDecimal_congr hvalue, ofDecimal_shortest .up (fits_of_view hview)]
  rw [finiteOfChars?, toList_plain hview, ofChars?_spelling hspells, hdecimal,
    signed_ofBinary hview, Option.filter_some, if_pos h]

/-- What stands in the plain form of a finite number. -/
theorem mem_plain {x : Float32} (h : x.isFinite = true) {c : Char} (hc : c ∈ (plain x).toList) :
    c = '-' ∨ c = '.' ∨ c.isDigit = true := by
  obtain ⟨negative, b, hview⟩ := isFinite_iff.mp h
  obtain ⟨n, hspells, -⟩ := (shortest .up b).spells_plain
  rw [toList_plain hview] at hc
  rcases List.mem_append.mp hc with hsign | hdigits
  · split at hsign
    · exact .inl (List.mem_singleton.mp hsign)
    · exact absurd hsign List.not_mem_nil
  · exact .inr (hspells.isDigit_of_mem hdigits).symm

theorem plain_ne_nil {x : Float32} (h : x.isFinite = true) : (plain x).toList ≠ [] := by
  obtain ⟨negative, b, hview⟩ := isFinite_iff.mp h
  obtain ⟨n, hspells, -⟩ := (shortest .up b).spells_plain
  obtain ⟨c, rest, hcons, -⟩ := hspells.exists_cons
  rw [toList_plain hview, hcons]
  exact List.append_ne_nil_of_right_ne_nil _ (List.cons_ne_nil _ _)

end Skycam.Single
