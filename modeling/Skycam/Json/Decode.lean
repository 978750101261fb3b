import Skycam.Json.Value
import Skycam.Number.Layout

/-!
# What JSON values stand for

Readers of typed data from JSON values, and the values that such data is written as. A record is
read from an object, whose fields may stand in any order and which may have further fields, or from
an array with the fields in their order. A number of single precision may be written as any JSON
number; an integer may not have a point or an exponent.
-/

namespace Skycam.Json

namespace Value

/-- A truth value. -/
def bool? : Value → Option Bool
  | .bool b => some b
  | _ => none

/-- A string that has a text. -/
def text? : Value → Option String
  | .string s => s
  | _ => none

/-- The items of an array, each read alike. -/
def list? {α : Type} (item : Value → Option α) : Value → Option (List α)
  | .array items => items.mapM item
  | _ => none

/-- Splits a literal into its sign and its digits. -/
def splitLiteral : List Char → Bool × List Char
  | '-' :: digits => (true, digits)
  | digits => (false, digits)

/-- The integer of a literal without point and exponent. Minus zero is none. -/
def literalInt? (literal : List Char) : Option Int :=
  let (negative, digits) := splitLiteral literal
  if digits.all Char.isDigit then
    let n := Decimal.ofDigits digits
    if negative then if n = 0 then none else some (-n) else some n
  else none

/-- An integer in a range. -/
def intBetween? (lo hi : Int) : Value → Option Int
  | .number literal => (literalInt? literal).filter fun n => lo ≤ n && n ≤ hi
  | _ => none

/-- An unsigned word. -/
def word? (v : Value) : Option UInt32 :=
  (v.intBetween? 0 (UInt32.size - 1)).map fun n => n.toNat.toUInt32

/-- A signed word. -/
def signedWord? (v : Value) : Option Int32 :=
  (v.intBetween? Int32.minValue.toInt Int32.maxValue.toInt).map Int32.ofInt

/-- An unsigned double word. -/
def doubleWord? (v : Value) : Option UInt64 :=
  (v.intBetween? 0 (UInt64.size - 1)).map fun n => n.toNat.toUInt64

/-- A literal at single precision by way of double precision: its leading digits are scaled by their
power of ten. The result of that must lie within the range of double precision. -/
def literalScaled? (literal : List Char) : Option Float32 := do
  let (negative, digits) := splitLiteral literal
  let n ← Numeral.ofChars? digits
  let size ← Single.ofScaled n.leading
  return Single.signed negative size

/-- A literal at single precision. An integer of 64 bits is rounded once; any other number goes
through double precision. -/
def literalSingle? (literal : List Char) : Option Float32 :=
  let direct := (literalInt? literal).filter fun n => Int64.minValue.toInt ≤ n && n < UInt64.size
  match direct with
  | some n => some (Single.ofInt n)
  | none => literalScaled? literal

/-- A number of single precision. -/
def single? : Value → Option Float32
  | .number literal => literalSingle? literal
  | _ => none

/-- A name out of a list, spelled as a string or as the only field of an object, with `null`. -/
def oneOf? {α : Type} (names : List (String × α)) (v : Value) : Option α :=
  let name : Option String :=
    match v with
    | .string s => s
    | .object [(name, .null)] => name
    | _ => none
  name.bind fun name => names.lookup name

/-- The values of the named fields of a record. A field may be missing; one that is there twice, or
an array with more items than there are fields, makes the record unreadable. -/
def fields? (names : List String) : Value → Option (List (Option Value))
  | .array items =>
    if items.length ≤ names.length then
      some (items.map some ++ List.replicate (names.length - items.length) none)
    else none
  | .object fields =>
    if fields.all fun (name, _) => name.isSome then
      names.mapM fun name =>
        match fields.filter fun (n, _) => n == some name with
        | [] => some none
        | [(_, v)] => some (some v)
        | _ => none
    else none
  | _ => none

/-- A number of single precision as it is written; `null` when it is not finite. -/
def ofSingle (x : Float32) : Value :=
  match Single.json? x with
  | some literal => .number literal.toList
  | none => .null

/-- An integer as it is written. -/
def ofInt (n : Int) : Value := .number (toString n).toList

end Value

/-- A field that must be there. -/
def required {α : Type} (read : Value → Option α) (field : Option Value) : Option α :=
  field.bind read

/-- A field that has a value of its own when it is missing. -/
def optional {α : Type} (fallback : α) (read : Value → Option α) : Option Value → Option α
  | none => some fallback
  | some v => read v

end Skycam.Json
