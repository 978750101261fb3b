/-!
# JSON values

A JSON text is read into a `Json.Value` and written from one. A number is kept as its literal: what
it denotes depends on who asks. A string may hold escapes of surrogates that form no pair; it then
has no text, which matters only to those who need the text.
-/

namespace Skycam.Json

/-- A JSON value. -/
inductive Value where
  /-- The literal `null`. -/
  | null
  /-- A truth value. -/
  | bool (b : Bool)
  /-- A number, as it is spelled. -/
  | number (literal : List Char)
  /-- A string; its text, if it has one. -/
  | string (text : Option String)
  /-- A list of values. -/
  | array (items : List Value)
  /-- Named values, in the order of the text. -/
  | object (fields : List (Option String × Value))

/-- The string with a text. -/
def Value.text (s : String) : Value := .string (some s)

/-- The object with the given fields. -/
def Value.record (fields : List (String × Value)) : Value :=
  .object (fields.map fun (name, v) => (some name, v))

end Skycam.Json
