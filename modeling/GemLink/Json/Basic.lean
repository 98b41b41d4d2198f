import GemLink.Text.Numeral

/-!
JSON documents and their compact text. Numbers are kept as the literal that was written, so that a
reader decides what numbers it takes; a string literal whose escapes leave a surrogate unpaired is
a document but names no text.
-/

namespace GemLink

/-- A JSON document. -/
inductive Json where
  /-- The literal `null`. -/
  | null
  /-- The literals `true` and `false`. -/
  | bool (value : Bool)
  /-- A number, by its literal. -/
  | number (literal : String)
  /-- A string; `none` if an escape in it leaves a surrogate unpaired. -/
  | string (text : Option String)
  /-- An array. -/
  | array (elements : List Json)
  /-- An object, with its members as written. -/
  | object (members : List (Option String × Json))
  deriving Inhabited

namespace Json

/-- A string document. -/
def ofText (s : String) : Json :=
  .string (some s)

/-- A number document. -/
def ofNat (n : Nat) : Json :=
  .number (String.ofList (Numeral.ofNat n))

/-- A number document. -/
def ofInt (i : Int) : Json :=
  .number (String.ofList (Numeral.ofInt i))

/-- A document that is `null` when there is no value. -/
def ofOption {α : Type} (f : α → Json) : Option α → Json
  | none => .null
  | some a => f a

/-- An object with the given members. -/
def ofFields (fields : List (String × Json)) : Json :=
  .object (fields.map fun (name, value) => (some name, value))

/-- The hexadecimal digit of a number below sixteen. -/
def hexDigit (d : Nat) : Char :=
  Char.ofNat (if d < 10 then 48 + d else 87 + d)

/-- How a character is written inside a string literal. -/
def escape (c : Char) : List Char :=
  if c = '"' then ['\\', '"']
  else if c = '\\' then ['\\', '\\']
  else if c = '\n' then ['\\', 'n']
  else if c = '\r' then ['\\', 'r']
  else if c = '\t' then ['\\', 't']
  else if c.toNat = 8 then ['\\', 'b']
  else if c.toNat = 12 then ['\\', 'f']
  else if c.toNat < 32 then
    ['\\', 'u', '0', '0', hexDigit (c.toNat / 16), hexDigit (c.toNat % 16)]
  else [c]

/-- The literal of a string, quotes included. -/
def quoted : Option String → List Char
  | some s => '"' :: (s.toList.flatMap escape ++ ['"'])
  | none => "\"\\ud800\"".toList

mutual

/-- The compact text of a document. -/
def chars : Json → List Char
  | .null => "null".toList
  | .bool true => "true".toList
  | .bool false => "false".toList
  | .number literal => literal.toList
  | .string text => quoted text
  | .array elements => '[' :: (elementChars elements ++ [']'])
  | .object members => '{' :: (memberChars members ++ ['}'])

/-- The text between the brackets of an array. -/
def elementChars : List Json → List Char
  | [] => []
  | [x] => chars x
  | x :: xs => chars x ++ ',' :: elementChars xs

/-- The text between the braces of an object. -/
def memberChars : List (Option String × Json) → List Char
  | [] => []
  | [(name, x)] => quoted name ++ ':' :: chars x
  | (name, x) :: rest => quoted name ++ ':' :: (chars x ++ ',' :: memberChars rest)

end

/-- The compact text of a document. -/
def render (j : Json) : String :=
  String.ofList j.chars

/-- The natural number that a document is the plain literal of. -/
def natural? : Json → Option Nat
  | .number literal => Numeral.natural? literal.toList
  | _ => none

/-- The text that a document is. -/
def text? : Json → Option String
  | .string text => text
  | _ => none

/-- The truth value that a document is. -/
def bool? : Json → Option Bool
  | .bool value => some value
  | _ => none

end Json

end GemLink
