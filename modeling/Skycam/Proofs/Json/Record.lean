import Skycam.Proofs.Number.Literal

/-!
# Written records and words are decoded again

A record that was written with names of its own for all its fields is decoded to the values of these
fields in their order (`Value.fields?_record`), and a word to itself (`Value.word?_ofInt`).
-/

namespace Skycam.Json.Value

/-! ## Records -/

/-- Where names are different, a field is the only one of its name. -/
theorem filter_named {fields : List (String × Value)} (hnodup : (fields.map Prod.fst).Nodup)
    {name : String} {v : Value} (hmem : (name, v) ∈ fields) :
    (named fields).filter (fun f => f.1 == some name) = [(some name, v)] := by
  induction fields with
  | nil => exact absurd hmem List.not_mem_nil
  | cons f fields ih =>
    obtain ⟨n, w⟩ := f
    obtain ⟨hfresh, hnodup⟩ := List.nodup_cons.mp hnodup
    have hcons : named ((n, w) :: fields) = (some n, w) :: named fields := rfl
    rw [hcons]
    rcases List.mem_cons.mp hmem with heq | hmem
    · obtain ⟨rfl, rfl⟩ := Prod.mk.inj heq
      have hnone : (named fields).filter (fun f => f.1 == some name) = [] := by
        rw [List.filter_eq_nil_iff]
        intro f hf hname
        obtain ⟨g, hg, rfl⟩ := List.mem_map.mp hf
        have hfst : g.1 = name := by simpa using hname
        exact hfresh (List.mem_map.mpr ⟨g, hg, hfst⟩)
      rw [List.filter_cons_of_pos (by simp), hnone]
    · have hne : n ≠ name := by
        rintro rfl
        exact hfresh (List.mem_map.mpr ⟨(n, v), hmem, rfl⟩)
      rw [List.filter_cons_of_neg (by simpa using hne), ih hnodup hmem]

theorem mapM_eq_some {α β : Type} {f : α → Option β} {g : α → β} {xs : List α}
    (h : ∀ x ∈ xs, f x = some (g x)) : xs.mapM f = some (xs.map g) := by
  induction xs with
  | nil => rfl
  | cons x xs ih =>
    obtain ⟨hx, hxs⟩ := List.forall_mem_cons.mp h
    simp [hx, ih hxs]

/-- A record is decoded to the values of its fields. -/
theorem fields?_record {fields : List (String × Value)} (hnodup : (fields.map Prod.fst).Nodup) :
    (Value.record fields).fields? (fields.map Prod.fst) = some (fields.map fun f => some f.2) := by
  have hall : (named fields).all (fun f => f.1.isSome) = true := by simp [named]
  rw [Value.record, Value.fields?]
  refine (if_pos hall).trans ?_
  rw [List.mapM_map]
  refine mapM_eq_some fun f hf => ?_
  have hfilter := filter_named hnodup hf
  simp only [named] at hfilter
  simp only [Function.comp_apply, hfilter]

/-! ## Words -/

theorem toList_toString (n : ℕ) : (toString (n : ℤ)).toList = Nat.toDigits 10 n := by
  show (Nat.repr n).toList = _
  rw [Nat.repr_eq_ofList_toDigits, String.toList_ofList]

/-- The digits of a whole number read as a number. -/
theorem isLiteral_toDigits (n : ℕ) : IsLiteral (Nat.toDigits 10 n) := by
  rcases Nat.eq_zero_or_pos n with rfl | hpos
  · rfl
  · have hdigits := readDigits_toDigits n
    obtain ⟨c, rest, hcons, hc⟩ := Decimal.toDigits_eq_cons hpos
    have hdigit : c.isDigit = true := Decimal.isDigit_of_mem_toDigits (hcons ▸ List.mem_cons_self)
    have hminus : c ≠ '-' := by
      rintro rfl
      exact absurd hdigit (by decide)
    rw [hcons] at hdigits ⊢
    have hwhole : readWhole (c :: rest) = some (c :: rest, []) := by
      simpa [readWhole, hc] using hdigits
    simp [IsLiteral, readNumber, hminus, hwhole, readFraction, readExponent]

/-- What an integer that is not negative is written as has a spelling. -/
theorem printable_ofInt (n : ℕ) : (ofInt n).Printable := by
  rw [ofInt, toList_toString]
  exact .number (isLiteral_toDigits n)

/-- The digits of a whole number read as that number. -/
theorem literalInt?_toDigits (n : ℕ) : literalInt? (Nat.toDigits 10 n) = some (n : ℤ) := by
  have hall : (Nat.toDigits 10 n).all Char.isDigit = true :=
    List.all_eq_true.mpr fun c hc => Decimal.isDigit_of_mem_toDigits hc
  have hsplit : splitLiteral (Nat.toDigits 10 n) = (false, Nat.toDigits 10 n) := by
    unfold splitLiteral
    split
    · next rest heq =>
      rw [heq] at hall
      exact absurd hall (by simp)
    · rfl
  simp [literalInt?, hsplit, hall, Decimal.ofDigits_toDigits]

/-- A word is decoded from what it is written as. -/
theorem word?_ofInt (n : UInt32) : (ofInt n.toNat).word? = some n := by
  have hrange :
      (decide ((0 : ℤ) ≤ n.toNat) && decide ((n.toNat : ℤ) ≤ UInt32.size - 1)) = true := by
    have hlt : n.toNat < UInt32.size := n.toNat_lt
    rw [Bool.and_eq_true, decide_eq_true_iff, decide_eq_true_iff]
    omega
  rw [word?, ofInt, toList_toString, intBetween?, literalInt?_toDigits, Option.filter_some,
    if_pos hrange, Option.map_some, Int.toNat_natCast]
  exact congrArg some UInt32.ofNat_toNat

end Skycam.Json.Value
