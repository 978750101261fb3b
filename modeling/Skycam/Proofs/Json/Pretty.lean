import Skycam.Json.Reader
import Skycam.Json.Writer

/-!
# Printed values are read again

A value is read from its own spelling with lines and indentation (`Value.ofText?_pretty`), provided
that each of its numbers is a literal of the grammar and that its strings have texts. The readers
take a value from the front of a text, so this is proved for a spelling with anything behind it that
no number can swallow, one case for each form of a value and by induction on its parts.
-/

namespace Skycam.Json

/-! ## Strings -/

theorem hexCode?_low {n : Nat} (h : n < 0x20) :
    hexCode? '0' '0' (hexDigit (n / 16)) (hexDigit (n % 16)) = some n := by
  have hall : ∀ n < 0x20,
      hexCode? '0' '0' (hexDigit (n / 16)) (hexDigit (n % 16)) = some n := by decide
  exact hall n h

/-- The code of a control character is no half of a pair. -/
theorem joinUnits_code_low {n : Nat} (h : n < 0x20) (units : List Unit16) :
    joinUnits (.code n :: units) = (joinUnits units).map (Char.ofNat n :: ·) := by
  have hhigh : isHighSurrogate n = false := by
    simp only [isHighSurrogate, Bool.and_eq_false_imp, decide_eq_true_eq, decide_eq_false_iff_not]
    omega
  have hlow : isLowSurrogate n = false := by
    simp only [isLowSurrogate, Bool.and_eq_false_imp, decide_eq_true_eq, decide_eq_false_iff_not]
    omega
  cases units with
  | nil => simp [joinUnits, hhigh, hlow]
  | cons u units =>
    cases u with
    | char c => simp [joinUnits, hhigh, hlow]
    | code m => simp [joinUnits, hhigh, hlow]

/-- A character is read back from its spelling inside a string. -/
theorem readUnits_escapeChar (c : Char) {cs rest : List Char} {units : List Unit16}
    (h : readUnits cs = some (units, rest)) :
    ∃ u, readUnits (escapeChar c ++ cs) = some (u :: units, rest) ∧
      joinUnits (u :: units) = (joinUnits units).map (c :: ·) := by
  have hshort : ∀ e, e ≠ 'u' → shortEscape? e = some c →
      ∃ u, readUnits (['\\', e] ++ cs) = some (u :: units, rest) ∧
        joinUnits (u :: units) = (joinUnits units).map (c :: ·) := by
    intro e hne he
    exact ⟨.char c, by simp [readUnits, hne, he, h], by simp [joinUnits]⟩
  unfold escapeChar
  split
  · next hc => exact hshort '"' (by decide) (by rw [hc]; rfl)
  split
  · next hc => exact hshort '\\' (by decide) (by rw [hc]; rfl)
  split
  · next hc => exact hshort 'n' (by decide) (by rw [hc]; rfl)
  split
  · next hc => exact hshort 'r' (by decide) (by rw [hc]; rfl)
  split
  · next hc => exact hshort 't' (by decide) (by rw [hc]; rfl)
  split
  · next hc => exact hshort 'b' (by decide) (by rw [hc]; rfl)
  split
  · next hc => exact hshort 'f' (by decide) (by rw [hc]; rfl)
  split
  · next hcontrol =>
    refine ⟨.code c.toNat, by simp [readUnits, hexCode?_low hcontrol, h], ?_⟩
    rw [joinUnits_code_low hcontrol, Char.ofNat_toNat]
  · next hquote hslash _ _ _ _ _ hplain =>
    exact ⟨.char c, by simp [readUnits, hslash, hplain, h], by simp [joinUnits]⟩

/-- Characters that are written in quotes are read up to the closing quote, as the same
characters. -/
theorem readUnits_quote (cs rest : List Char) :
    ∃ units, readUnits (cs.flatMap escapeChar ++ '"' :: rest) = some (units, rest) ∧
      joinUnits units = some cs := by
  induction cs with
  | nil => exact ⟨[], by simp [readUnits], rfl⟩
  | cons c cs ih =>
    obtain ⟨units, hread, hjoin⟩ := ih
    obtain ⟨u, hread, hmore⟩ := readUnits_escapeChar c hread
    refine ⟨u :: units, ?_, by rw [hmore, hjoin]; rfl⟩
    rw [List.flatMap_cons, List.append_assoc, hread]

/-- A string is read from its spelling. -/
theorem readString_quote (s : String) (rest : List Char) :
    ∃ cs, quote s ++ rest = '"' :: cs ∧ readString cs = some (some s, rest) := by
  obtain ⟨units, hread, hjoin⟩ := readUnits_quote s.toList rest
  refine ⟨s.toList.flatMap escapeChar ++ '"' :: rest, by simp [quote], ?_⟩
  rw [readString, hread]
  simp [hjoin]

/-! ## Numbers -/

/-- Whether a text begins with nothing that a number could go on with. -/
def EndsNumber (rest : List Char) : Prop :=
  ∀ c ∈ rest.head?, c.isDigit = false ∧ c ≠ '.' ∧ c ≠ 'e' ∧ c ≠ 'E'

/-- Whether a text is a number of the grammar as a whole. -/
def IsLiteral (literal : List Char) : Prop := readNumber literal = some (literal, [])

section Append

variable {cs rest ds more : List Char}

/-- What cannot go on a number does not go on its digits. -/
theorem takeWhile_append (cs : List Char) (hrest : EndsNumber rest) :
    (cs ++ rest).takeWhile Char.isDigit = cs.takeWhile Char.isDigit ∧
      (cs ++ rest).dropWhile Char.isDigit = cs.dropWhile Char.isDigit ++ rest := by
  induction cs with
  | nil =>
    cases rest with
    | nil => simp
    | cons c rest => simp [(hrest c rfl).1]
  | cons c cs ih =>
    by_cases hc : c.isDigit = true
    · simp [hc, ih]
    · simp [hc]

theorem readDigits_append (hrest : EndsNumber rest) (h : readDigits cs = some (ds, more)) :
    readDigits (cs ++ rest) = some (ds, more ++ rest) := by
  obtain ⟨htake, hdrop⟩ := takeWhile_append cs hrest
  simp only [readDigits, Option.ite_none_left_eq_some, Option.some.injEq, Prod.mk.injEq] at h ⊢
  obtain ⟨hne, rfl, rfl⟩ := h
  rw [htake, hdrop]
  exact ⟨hne, rfl, rfl⟩

/-- The whole part of a number ends where the number does. -/
theorem readWhole_append (hrest : EndsNumber rest) (h : readWhole cs = some (ds, more)) :
    readWhole (cs ++ rest) = some (ds, more ++ rest) := by
  unfold readWhole at h
  split at h
  · obtain ⟨rfl, rfl⟩ := Prod.mk.inj (Option.some.inj h)
    rfl
  · next hzero =>
    cases cs with
    | nil => simp [readDigits] at h
    | cons c cs =>
      have hc : c ≠ '0' := fun hc => hzero cs (hc ▸ rfl)
      have hdigits := readDigits_append hrest h
      simpa [readWhole, hc] using hdigits

/-- The fraction of a number ends where the number does. -/
theorem readFraction_append (hrest : EndsNumber rest) (h : readFraction cs = some (ds, more)) :
    readFraction (cs ++ rest) = some (ds, more ++ rest) := by
  cases cs with
  | nil =>
    obtain ⟨rfl, rfl⟩ := Prod.mk.inj (Option.some.inj h)
    cases rest with
    | nil => rfl
    | cons c rest => simp [readFraction, (hrest c rfl).2.1]
  | cons c cs =>
    by_cases hc : c = '.'
    · subst hc
      obtain ⟨⟨es, more'⟩, hdigits, heq⟩ := Option.map_eq_some_iff.mp h
      obtain ⟨rfl, rfl⟩ := Prod.mk.inj heq
      simp [readFraction, readDigits_append hrest hdigits]
    · have hnone : ∀ cs, readFraction (c :: cs) = some ([], c :: cs) := by
        intro cs
        simp [readFraction, hc]
      rw [hnone] at h
      obtain ⟨rfl, rfl⟩ := Prod.mk.inj (Option.some.inj h)
      exact hnone _

/-- The exponent of a number ends where the number does. -/
theorem readExponent_append (hrest : EndsNumber rest) (h : readExponent cs = some (ds, more)) :
    readExponent (cs ++ rest) = some (ds, more ++ rest) := by
  cases cs with
  | nil =>
    obtain ⟨rfl, rfl⟩ := Prod.mk.inj (Option.some.inj h)
    cases rest with
    | nil => rfl
    | cons c rest => simp [readExponent, (hrest c rfl).2.2]
  | cons c cs =>
    by_cases hc : c = 'e' ∨ c = 'E'
    · cases cs with
      | nil => simp [readExponent, hc] at h
      | cons s cs =>
        by_cases hs : s = '+' ∨ s = '-'
        · simp only [readExponent, hc, hs, if_true] at h
          obtain ⟨⟨es, more'⟩, hdigits, heq⟩ := Option.map_eq_some_iff.mp h
          obtain ⟨rfl, rfl⟩ := Prod.mk.inj heq
          simp [readExponent, hc, hs, readDigits_append hrest hdigits]
        · simp only [readExponent, hc, hs, if_true, if_false] at h
          obtain ⟨⟨es, more'⟩, hdigits, heq⟩ := Option.map_eq_some_iff.mp h
          obtain ⟨rfl, rfl⟩ := Prod.mk.inj heq
          have hmore := readDigits_append hrest hdigits
          simp only [List.cons_append] at hmore
          simp [readExponent, hc, hs, hmore]
    · simp only [readExponent, hc, if_false] at h
      obtain ⟨rfl, rfl⟩ := Prod.mk.inj (Option.some.inj h)
      simp [readExponent, hc]

/-- Reads the parts of a number behind its sign. -/
def readUnsigned (sign cs : List Char) : Option (List Char × List Char) := do
  let (whole, cs) ← readWhole cs
  let (fraction, cs) ← readFraction cs
  let (exponent, cs) ← readExponent cs
  return (sign ++ whole ++ fraction ++ exponent, cs)

/-- A number is its sign, if there is one, and an unsigned number. -/
theorem readNumber_cons (c : Char) (cs : List Char) :
    readNumber (c :: cs) =
      if c = '-' then readUnsigned ['-'] cs else readUnsigned [] (c :: cs) := by
  by_cases hc : c = '-'
  · subst hc
    rfl
  · simp [readNumber, readUnsigned, hc]

/-- An unsigned number is read in the same way whatever follows that cannot go on it. -/
theorem readUnsigned_append {sign : List Char} (hrest : EndsNumber rest)
    (h : readUnsigned sign cs = some (ds, more)) :
    readUnsigned sign (cs ++ rest) = some (ds, more ++ rest) := by
  simp only [readUnsigned, Option.bind_eq_bind, Option.bind_eq_some_iff, Option.pure_def,
    Option.some.injEq, Prod.mk.injEq] at h
  obtain ⟨⟨whole, _⟩, hwhole, ⟨fraction, _⟩, hfraction, ⟨exponent, _⟩, hexponent, rfl, rfl⟩ := h
  simp [readUnsigned, readWhole_append hrest hwhole, readFraction_append hrest hfraction,
    readExponent_append hrest hexponent]

/-- A number is read from the front of a text as it is read alone. -/
theorem readNumber_append (hrest : EndsNumber rest) (h : readNumber cs = some (ds, more)) :
    readNumber (cs ++ rest) = some (ds, more ++ rest) := by
  cases cs with
  | nil => simp [readNumber, readWhole, readDigits] at h
  | cons c cs =>
    rw [readNumber_cons] at h
    rw [List.cons_append, readNumber_cons]
    by_cases hc : c = '-'
    · rw [if_pos hc] at h ⊢
      exact readUnsigned_append hrest h
    · rw [if_neg hc] at h ⊢
      exact readUnsigned_append hrest h

end Append

/-- A literal begins with a minus sign or a digit. -/
theorem IsLiteral.exists_cons {literal : List Char} (h : IsLiteral literal) :
    ∃ c rest, literal = c :: rest ∧ (c = '-' ∨ c.isDigit = true) := by
  cases literal with
  | nil => simp [IsLiteral, readNumber, readWhole, readDigits] at h
  | cons c rest =>
    refine ⟨c, rest, rfl, Classical.byContradiction fun hc => ?_⟩
    obtain ⟨hminus, hdigit⟩ := not_or.mp hc
    have hzero : c ≠ '0' := by
      rintro rfl
      exact hdigit rfl
    simp [IsLiteral, readNumber, readWhole, readDigits, hminus, hzero, hdigit] at h

/-! ## Values -/

/-- Whether a value has a spelling: its numbers are literals of the grammar, and its strings have
texts. -/
inductive Value.Printable : Value → Prop
  /-- The literal `null`. -/
  | null : Printable .null
  /-- A truth value. -/
  | bool (b : Bool) : Printable (.bool b)
  /-- A number. -/
  | number {literal : List Char} (h : IsLiteral literal) : Printable (.number literal)
  /-- A string. -/
  | text (s : String) : Printable (.text s)
  /-- A list of values that have spellings. -/
  | array {items : List Value} (h : ∀ v ∈ items, Printable v) : Printable (.array items)
  /-- Named values that have spellings. -/
  | record {fields : List (String × Value)} (h : ∀ f ∈ fields, Printable f.2) :
    Printable (.record fields)

theorem dropWhile_isSpace_append {blanks : List Char} (h : ∀ c ∈ blanks, isSpace c = true)
    (cs : List Char) : skipSpace (blanks ++ cs) = skipSpace cs :=
  List.dropWhile_append_of_pos h

theorem isSpace_of_mem_newLine {level : Nat} {c : Char} (hc : c ∈ newLine level) :
    isSpace c = true := by
  rcases List.mem_cons.mp hc with rfl | hblank
  · rfl
  · rw [List.eq_of_mem_replicate hblank]
    rfl

@[simp]
theorem skipSpace_newLine (level : Nat) (cs : List Char) :
    skipSpace (newLine level ++ cs) = skipSpace cs :=
  dropWhile_isSpace_append (fun _ => isSpace_of_mem_newLine) cs

theorem skipSpace_cons {c : Char} (h : isSpace c = false) (cs : List Char) :
    skipSpace (c :: cs) = c :: cs := by
  simp [skipSpace, h]

/-- Blanks before a value do not count. -/
theorem readValue_skip {blanks : List Char} (h : ∀ c ∈ blanks, isSpace c = true) (depth : Nat)
    (cs : List Char) : readValue depth (blanks ++ cs) = readValue depth cs := by
  cases depth with
  | zero => rfl
  | succ depth => rw [readValue, readValue, dropWhile_isSpace_append h]

/-- Whether a value is read from its spelling at every level, with anything behind it that no number
goes on with. -/
def Value.Reads (v : Value) : Prop :=
  ∀ level depth rest, EndsNumber rest → (prettyChars level v).length ≤ depth →
    readValue depth (prettyChars level v ++ rest) = some (v, rest)

theorem endsNumber_newLine (level : Nat) (cs : List Char) : EndsNumber (newLine level ++ cs) := by
  intro c hc
  obtain rfl : '\n' = c := by simpa [newLine] using hc
  decide

theorem endsNumber_comma (cs : List Char) : EndsNumber (',' :: cs) := by
  intro c hc
  obtain rfl : ',' = c := by simpa using hc
  decide

/-- A literal that reads as a number comes back as it was written. -/
theorem reads_number {literal : List Char} (h : IsLiteral literal) :
    (Value.number literal).Reads := by
  intro level depth rest hrest hdepth
  obtain ⟨c, cs, rfl, hc⟩ := h.exists_cons
  have hread : readNumber (c :: (cs ++ rest)) = some (c :: cs, rest) := readNumber_append hrest h
  have hne : ∀ d : Char, d.isDigit = false → d ≠ '-' → c ≠ d := by
    rintro d hdigit hminus rfl
    exact hc.elim hminus (Bool.eq_false_iff.mp hdigit)
  have hspace : isSpace c = false := by
    simp [isSpace, hne ' ' rfl (by decide), hne '\n' rfl (by decide), hne '\r' rfl (by decide),
      hne '\t' rfl (by decide)]
  cases depth with
  | zero => simp [prettyChars] at hdepth
  | succ depth =>
    simp [readValue, prettyChars, skipSpace, hspace, hread, hne '[' rfl (by decide),
      hne '\x7b' rfl (by decide), hne '"' rfl (by decide), hne 'n' rfl (by decide),
      hne 't' rfl (by decide), hne 'f' rfl (by decide)]

/-- A text comes back as it was written. -/
theorem reads_text (s : String) : (Value.text s).Reads := by
  intro level depth rest _ hdepth
  obtain ⟨cs, hquote, hread⟩ := readString_quote s rest
  cases depth with
  | zero => simp [Value.text, prettyChars, quoteText, quote] at hdepth
  | succ depth =>
    have hchars : prettyChars level (.text s) ++ rest = '"' :: cs := hquote
    rw [hchars]
    simp [readValue, skipSpace, isSpace, hread, Value.text]

theorem prettyItems_cons (level : Nat) (v : Value) (items : List Value) :
    prettyItems level (v :: items) = newLine level ++ prettyChars level v ++
      (if items = [] then [] else ',' :: prettyItems level items) := by
  cases items with
  | nil => simp [prettyItems]
  | cons w items => simp [prettyItems]

/-- The items of an array are read up to the closing bracket. -/
theorem readItems_pretty {items : List Value} (hne : items ≠ []) (h : ∀ v ∈ items, v.Reads)
    (level level' depth : Nat) (rest : List Char)
    (hdepth : (prettyItems level items).length ≤ depth) :
    readItems depth (prettyItems level items ++ (newLine level' ++ ']' :: rest)) =
      some (items, rest) := by
  induction items generalizing depth with
  | nil => exact absurd rfl hne
  | cons v items ih =>
    obtain ⟨hv, hitems⟩ := List.forall_mem_cons.mp h
    rw [prettyItems_cons] at hdepth ⊢
    have hblank : (newLine level).length = 2 * level + 1 := by simp [newLine]
    simp only [List.length_append, hblank] at hdepth
    cases depth with
    | zero => omega
    | succ depth =>
      simp only [List.append_assoc, readItems]
      rw [readValue_skip (fun _ => isSpace_of_mem_newLine)]
      by_cases hlast : items = []
      · rw [hlast, if_pos rfl, List.nil_append,
          hv level depth _ (endsNumber_newLine _ _) (by omega)]
        simp [skipSpace_cons (c := ']') rfl]
      · rw [if_neg hlast, List.length_cons] at hdepth
        rw [if_neg hlast, List.cons_append, hv level depth _ (endsNumber_comma _) (by omega)]
        simp [skipSpace_cons (c := ',') rfl, ih hlast hitems depth (by omega)]

/-- Fields stand on lines of their own, with a comma behind each but the last. -/
theorem prettyFields_cons (level : Nat) (name : String) (v : Value)
    (fields : List (Option String × Value)) :
    prettyFields level ((some name, v) :: fields) =
      newLine level ++ quote name ++ ": ".toList ++ prettyChars level v ++
        (if fields = [] then [] else ',' :: prettyFields level fields) := by
  cases fields with
  | nil => simp [prettyFields, quoteText]
  | cons f fields => simp [prettyFields, quoteText]

/-- The fields of a record in an object. -/
def named (fields : List (String × Value)) : List (Option String × Value) :=
  fields.map fun (name, v) => (some name, v)

/-- A name with its colon is read, then the value, and then the closing brace or the other fields
behind a comma. -/
theorem readFields_name {depth : Nat} {v : Value} {cs more rest : List Char}
    {fields : List (Option String × Value)} (level : Nat) (name : String)
    (hvalue : readValue depth cs = some (v, more))
    (hmore : (fields = [] ∧ skipSpace more = '\x7d' :: rest) ∨
      ∃ tail, skipSpace more = ',' :: tail ∧ readFields depth tail = some (fields, rest)) :
    readFields (depth + 1) (newLine level ++ quote name ++ ": ".toList ++ cs) =
      some ((some name, v) :: fields, rest) := by
  obtain ⟨tail, hquote, hread⟩ := readString_quote name (": ".toList ++ cs)
  have hblank : readValue depth (' ' :: cs) = readValue depth cs :=
    readValue_skip (List.forall_mem_singleton.mpr rfl) depth cs
  rw [List.append_assoc, List.append_assoc, readFields, skipSpace_newLine, hquote,
    skipSpace_cons rfl]
  rcases hmore with ⟨rfl, hclose⟩ | ⟨tail, hcomma, hfields⟩
  · simp [hread, skipSpace_cons (c := ':') rfl, hblank, hvalue, hclose]
  · simp [hread, skipSpace_cons (c := ':') rfl, hblank, hvalue, hcomma, hfields]

/-- The fields of an object are read up to the closing brace. -/
theorem readFields_pretty {fields : List (String × Value)} (hne : fields ≠ [])
    (h : ∀ f ∈ fields, f.2.Reads) (level level' depth : Nat) (rest : List Char)
    (hdepth : (prettyFields level (named fields)).length ≤ depth) :
    readFields depth (prettyFields level (named fields) ++ (newLine level' ++ '\x7d' :: rest)) =
      some (named fields, rest) := by
  induction fields generalizing depth with
  | nil => exact absurd rfl hne
  | cons f fields ih =>
    obtain ⟨name, v⟩ := f
    obtain ⟨hv, hfields⟩ : v.Reads ∧ ∀ f ∈ fields, f.2.Reads := List.forall_mem_cons.mp h
    have hcons : named ((name, v) :: fields) = (some name, v) :: named fields := rfl
    rw [hcons, prettyFields_cons] at hdepth ⊢
    have hblank : (newLine level).length = 2 * level + 1 := by simp [newLine]
    simp only [List.length_append, hblank] at hdepth
    cases depth with
    | zero => omega
    | succ depth =>
      rw [List.append_assoc, List.append_assoc]
      by_cases hlast : fields = []
      · subst hlast
        have hvalue := hv level depth (newLine level' ++ '\x7d' :: rest)
          (endsNumber_newLine _ _) (by omega)
        exact readFields_name level name hvalue
          (.inl ⟨rfl, (skipSpace_newLine level' _).trans (skipSpace_cons rfl rest)⟩)
      · have hmany : named fields ≠ [] := by simpa [named] using hlast
        rw [if_neg hmany, List.length_cons] at hdepth
        rw [if_neg hmany]
        have hvalue := hv level depth
          (',' :: (prettyFields level (named fields) ++ (newLine level' ++ '\x7d' :: rest)))
          (endsNumber_comma _) (by omega)
        exact readFields_name level name hvalue
          (.inr ⟨_, skipSpace_cons rfl _, ih hlast hfields depth (by omega)⟩)

/-- What is read between the brackets is an array. -/
theorem readValue_array {depth : Nat} {cs rest : List Char} {items : List Value}
    (h : readItems depth cs = some (items, rest)) :
    readValue (depth + 1) ('[' :: cs) = some (.array items, rest) := by
  -- no value begins with the closing bracket
  have hopen : ∀ more, skipSpace cs ≠ ']' :: more := by
    intro more hclose
    cases depth with
    | zero => simp [readItems] at h
    | succ depth =>
      cases depth with
      | zero => simp [readItems, readValue] at h
      | succ depth =>
        simp [readItems, readValue, hclose, readNumber, readWhole, readDigits] at h
  simp [readValue, skipSpace_cons (c := '[') rfl, h]

/-- What is read between the braces is an object. -/
theorem readValue_object {depth : Nat} {cs rest : List Char}
    {fields : List (Option String × Value)} (h : readFields depth cs = some (fields, rest)) :
    readValue (depth + 1) ('\x7b' :: cs) = some (.object fields, rest) := by
  have hopen : ∀ more, skipSpace cs ≠ '\x7d' :: more := by
    intro more hclose
    cases depth with
    | zero => simp [readFields] at h
    | succ depth => simp [readFields, hclose] at h
  simp [readValue, skipSpace_cons (c := '\x7b') rfl, h]

/-- An array comes back if each of its items does. -/
theorem reads_array {items : List Value} (h : ∀ v ∈ items, v.Reads) :
    (Value.array items).Reads := by
  intro level depth rest _ hdepth
  cases items with
  | nil =>
    cases depth with
    | zero => simp [prettyChars] at hdepth
    | succ depth => simp [readValue, prettyChars, skipSpace, isSpace]
  | cons v items =>
    simp only [prettyChars, List.length_cons, List.length_append] at hdepth
    cases depth with
    | zero => omega
    | succ depth =>
      have hitems := readItems_pretty (List.cons_ne_nil v items) h (level + 1) level depth rest
        (by omega)
      simpa [prettyChars] using readValue_array hitems

/-- A record comes back if the value of each of its fields does. -/
theorem reads_record {fields : List (String × Value)} (h : ∀ f ∈ fields, f.2.Reads) :
    (Value.record fields).Reads := by
  intro level depth rest _ hdepth
  cases fields with
  | nil =>
    cases depth with
    | zero => simp [Value.record, prettyChars] at hdepth
    | succ depth => simp [Value.record, readValue, prettyChars, skipSpace, isSpace]
  | cons f fields =>
    have hchars : prettyChars level (.record (f :: fields)) =
        '\x7b' :: (prettyFields (level + 1) (named (f :: fields)) ++ newLine level ++
          ['\x7d']) := by
      rw [Value.record, List.map_cons, prettyChars]
      rfl
    rw [hchars] at hdepth ⊢
    simp only [List.length_cons, List.length_append] at hdepth
    cases depth with
    | zero => omega
    | succ depth =>
      have hfields := readFields_pretty (List.cons_ne_nil f fields) h (level + 1) level depth rest
        (by omega)
      simp only [List.cons_append, List.append_assoc, List.nil_append]
      exact readValue_object hfields

namespace Value.Printable

variable {v : Value}

/-- A value is read from its spelling, wherever that stands. -/
theorem reads (h : v.Printable) : v.Reads := by
  induction h with
  | null =>
    intro level depth rest _ hdepth
    cases depth with
    | zero => simp [prettyChars] at hdepth
    | succ depth => simp [readValue, prettyChars, skipSpace, isSpace, readWord]
  | bool b =>
    intro level depth rest _ hdepth
    cases depth with
    | zero => cases b <;> simp [prettyChars] at hdepth
    | succ depth => cases b <;> simp [readValue, prettyChars, skipSpace, isSpace, readWord]
  | number h => exact reads_number h
  | text s => exact reads_text s
  | array _ ih => exact reads_array ih
  | record _ ih => exact reads_record ih

/-- A value is read from its text. -/
theorem ofText?_pretty (h : v.Printable) : Value.ofText? v.pretty = some v := by
  have hnone : EndsNumber [] := by
    intro c hc
    cases hc
  have hread := h.reads 0 (2 * (prettyChars 0 v).length + 2) [] hnone (by omega)
  rw [List.append_nil] at hread
  simp [Value.ofText?, Value.pretty, hread, skipSpace]

end Value.Printable

end Skycam.Json
