import Skycam.Text.CaseTable

/-!
# Small letters

`lowercase` writes a text in small letters by the Unicode rules that hold in every language: each
capital letter by its own small letter, the dotted capital I by an i and a combining dot, and a
capital sigma by its final form where it ends a word.
-/

namespace Skycam.Text

/-- Whether a code point lies in one of the ranges. -/
def inRanges (ranges : List (Nat × Nat)) (c : Char) : Bool :=
  ranges.any fun (lo, hi) => lo ≤ c.toNat && c.toNat ≤ hi

/-- The characters that have a case. -/
def isCased (c : Char) : Bool := inRanges casedRanges c

/-- The characters that are passed over when the letters next to a sigma are looked for. -/
def isCaseIgnorable (c : Char) : Bool := inRanges caseIgnorableRanges c

/-- Whether the capital letter `c` belongs to the range. -/
def LowerRange.holds (r : LowerRange) (c : Char) : Bool :=
  r.first ≤ c.toNat && c.toNat ≤ r.last && (c.toNat - r.first) % r.step == 0

/-- The small letter of one character, without regard to its neighbours. -/
def lowerChar (c : Char) : List Char :=
  if c = 'İ' then ['i', '\u0307']
  else
    match lowerRanges.find? (·.holds c) with
    | some r => [Char.ofNat (c.toNat + r.shift).toNat]
    | none => [c]

/-- Whether the first character that counts is a cased one. -/
def startsCased (cs : List Char) : Bool :=
  match (cs.dropWhile isCaseIgnorable).head? with
  | some c => isCased c
  | none => false

/-- Small letters for the rest of a text; `before` is what precedes it, last character first. A
capital sigma takes its final form after a cased letter when no cased letter follows. -/
def lowerFrom (before : List Char) : List Char → List Char
  | [] => []
  | c :: rest =>
    let small :=
      if c = 'Σ' then
        if startsCased before && !startsCased rest then ['ς'] else ['σ']
      else lowerChar c
    small ++ lowerFrom (c :: before) rest

/-- A string in small letters. -/
def lowercase (s : String) : String := String.ofList (lowerFrom [] s.toList)

end Skycam.Text
