import Skycam.Json.Value

/-!
# Writing JSON

Two spellings of a value: without any blank, and with every item and every field on a line of its
own, indented by two blanks a level. In a string only quotes, backslashes and control characters
are escaped.
-/

namespace Skycam.Json

/-- A hexadecimal digit. -/
def hexDigit (n : Nat) : Char := Nat.digitChar n

/-- The spelling of a character inside a string. -/
def escapeChar (c : Char) : List Char :=
  if c = '"' then ['\\', '"']
  else if c = '\\' then ['\\', '\\']
  else if c = '\n' then ['\\', 'n']
  else if c = '\r' then ['\\', 'r']
  else if c = '\t' then ['\\', 't']
  else if c = '\x08' then ['\\', 'b']
  else if c = '\x0c' then ['\\', 'f']
  else if c.toNat < 0x20 then
    ['\\', 'u', '0', '0', hexDigit (c.toNat / 16), hexDigit (c.toNat % 16)]
  else [c]

/-- The spelling of a string. -/
def quote (s : String) : List Char := '"' :: (s.toList.flatMap escapeChar ++ ['"'])

/-- The spelling of a string that may have no text. -/
def quoteText (s : Option String) : List Char := quote (s.getD "")

mutual

/-- A value without blanks. -/
def compactChars : Value → List Char
  | .null => "null".toList
  | .bool true => "true".toList
  | .bool false => "false".toList
  | .number literal => literal
  | .string s => quoteText s
  | .array items => '[' :: (compactItems items ++ [']'])
  | .object fields => '\x7b' :: (compactFields fields ++ ['\x7d'])

/-- Items separated by commas. -/
def compactItems : List Value → List Char
  | [] => []
  | [v] => compactChars v
  | v :: rest => compactChars v ++ ',' :: compactItems rest

/-- Fields separated by commas. -/
def compactFields : List (Option String × Value) → List Char
  | [] => []
  | [(name, v)] => quoteText name ++ ':' :: compactChars v
  | (name, v) :: rest => quoteText name ++ ':' :: compactChars v ++ ',' :: compactFields rest

end

/-- A new line with the indentation of a level. -/
def newLine (level : Nat) : List Char := '\n' :: List.replicate (2 * level) ' '

mutual

/-- A value on lines of their own for items and fields. -/
def prettyChars (level : Nat) : Value → List Char
  | .null => "null".toList
  | .bool true => "true".toList
  | .bool false => "false".toList
  | .number literal => literal
  | .string s => quoteText s
  | .array [] => ['[', ']']
  | .array (v :: rest) => '[' :: (prettyItems (level + 1) (v :: rest) ++ newLine level ++ [']'])
  | .object [] => ['\x7b', '\x7d']
  | .object (f :: rest) =>
    '\x7b' :: (prettyFields (level + 1) (f :: rest) ++ newLine level ++ ['\x7d'])

/-- Items, each on a line. -/
def prettyItems (level : Nat) : List Value → List Char
  | [] => []
  | [v] => newLine level ++ prettyChars level v
  | v :: rest => newLine level ++ prettyChars level v ++ ',' :: prettyItems level rest

/-- Fields, each on a line. -/
def prettyFields (level : Nat) : List (Option String × Value) → List Char
  | [] => []
  | [(name, v)] => newLine level ++ quoteText name ++ ": ".toList ++ prettyChars level v
  | (name, v) :: rest =>
    newLine level ++ quoteText name ++ ": ".toList ++ prettyChars level v ++
      ',' :: prettyFields level rest

end

/-- The spelling without blanks. -/
def Value.compact (v : Value) : String := String.ofList (compactChars v)

/-- The spelling with lines and indentation. -/
def Value.pretty (v : Value) : String := String.ofList (prettyChars 0 v)

end Skycam.Json
