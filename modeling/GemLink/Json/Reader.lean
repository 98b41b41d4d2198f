import GemLink.Json.Basic

/-!
Reading JSON text. The grammar is followed to the letter: no comments, no trailing commas, no
leading zeros, no bare control characters in strings, and only the four blanks of JSON between
tokens.
-/

namespace GemLink.Json

/-- Drops the blanks in front. -/
def skipBlank (cs : List Char) : List Char :=
  cs.dropWhile fun c => c = ' ' || c = '\n' || c = '\t' || c = '\r'

/-- The value of a hexadecimal digit. -/
def hexValue? (c : Char) : Option Nat :=
  if '0' ≤ c ∧ c ≤ '9' then some (c.toNat - 48)
  else if 'a' ≤ c ∧ c ≤ 'f' then some (c.toNat - 87)
  else if 'A' ≤ c ∧ c ≤ 'F' then some (c.toNat - 55)
  else none

/-- The code unit written by four hexadecimal digits. -/
def hexUnit? (a b c d : Char) : Option Nat := do
  let a ← hexValue? a
  let b ← hexValue? b
  let c ← hexValue? c
  let d ← hexValue? d
  some (((a * 16 + b) * 16 + c) * 16 + d)

/-- The code of the character that follows a backslash. -/
def unescape? : Char → Option Nat
  | '"' => some 34
  | '\\' => some 92
  | '/' => some 47
  | 'b' => some 8
  | 'f' => some 12
  | 'n' => some 10
  | 'r' => some 13
  | 't' => some 9
  | _ => none

/-- Reads a string literal after its opening quote: the code units, and the text behind the closing
quote. `before` holds the units already read, last first. -/
def units? (before : List Nat) : List Char → Option (List Nat × List Char)
  | [] => none
  | '"' :: rest => some (before.reverse, rest)
  | '\\' :: 'u' :: a :: b :: c :: d :: rest =>
    match hexUnit? a b c d with
    | some unit => units? (unit :: before) rest
    | none => none
  | '\\' :: c :: rest =>
    match unescape? c with
    | some unit => units? (unit :: before) rest
    | none => none
  | c :: rest => if c.toNat < 32 then none else units? (c.toNat :: before) rest

/-- Joins the surrogate pairs of a row of code units; `none` if a surrogate stays alone. `before`
holds the characters already found, last first. -/
def join? (before : List Char) : List Nat → Option (List Char)
  | [] => some before.reverse
  | high :: rest =>
    if 0xD800 ≤ high ∧ high ≤ 0xDBFF then
      match rest with
      | low :: rest =>
        if 0xDC00 ≤ low ∧ low ≤ 0xDFFF then
          join? (Char.ofNat (0x10000 + (high - 0xD800) * 0x400 + (low - 0xDC00)) :: before) rest
        else none
      | [] => none
    else if 0xDC00 ≤ high ∧ high ≤ 0xDFFF then none
    else join? (Char.ofNat high :: before) rest

/-- Reads a string literal after its opening quote. -/
def literal? (cs : List Char) : Option (Option String × List Char) :=
  (units? [] cs).map fun (units, rest) => ((join? [] units).map String.ofList, rest)

/-- Reads at least one digit. -/
def digits? (cs : List Char) : Option (List Char × List Char) :=
  match cs.takeWhile Char.isDigit with
  | [] => none
  | ds => some (ds, cs.dropWhile Char.isDigit)

/-- Reads the whole part of a number: a zero alone or digits that begin with another one. -/
def whole? : List Char → Option (List Char × List Char)
  | '0' :: rest => some (['0'], rest)
  | cs => digits? cs

/-- Reads the fraction that a number may have. -/
def fraction? : List Char → Option (List Char × List Char)
  | '.' :: rest => (digits? rest).map fun (ds, rest) => ('.' :: ds, rest)
  | cs => some ([], cs)

/-- Reads the exponent that a number may have. -/
def power? : List Char → Option (List Char × List Char)
  | c :: rest =>
    if c = 'e' ∨ c = 'E' then
      match rest with
      | '+' :: rest => (digits? rest).map fun (ds, rest) => (c :: '+' :: ds, rest)
      | '-' :: rest => (digits? rest).map fun (ds, rest) => (c :: '-' :: ds, rest)
      | rest => (digits? rest).map fun (ds, rest) => (c :: ds, rest)
    else some ([], c :: rest)
  | [] => some ([], [])

/-- Reads a number. -/
def number? (cs : List Char) : Option (Json × List Char) := do
  let (sign, cs) := match cs with
    | '-' :: rest => (['-'], rest)
    | cs => ([], cs)
  let (whole, cs) ← whole? cs
  let (fraction, cs) ← fraction? cs
  let (power, cs) ← power? cs
  some (.number (String.ofList (sign ++ whole ++ fraction ++ power)), cs)

mutual

/-- Reads a document from the front of a text, with at most `fuel` nested steps. -/
def value? : Nat → List Char → Option (Json × List Char)
  | 0, _ => none
  | fuel + 1, cs =>
    match skipBlank cs with
    | '{' :: rest =>
      match skipBlank rest with
      | '}' :: rest => some (.object [], rest)
      | rest => members? fuel [] rest
    | '[' :: rest =>
      match skipBlank rest with
      | ']' :: rest => some (.array [], rest)
      | rest => elements? fuel [] rest
    | '"' :: rest => (literal? rest).map fun (text, rest) => (.string text, rest)
    | 'n' :: 'u' :: 'l' :: 'l' :: rest => some (.null, rest)
    | 't' :: 'r' :: 'u' :: 'e' :: rest => some (.bool true, rest)
    | 'f' :: 'a' :: 'l' :: 's' :: 'e' :: rest => some (.bool false, rest)
    | rest => number? rest

/-- Reads the elements of an array up to its closing bracket, those in `before` being read. -/
def elements? : Nat → List Json → List Char → Option (Json × List Char)
  | 0, _, _ => none
  | fuel + 1, before, cs =>
    match value? fuel cs with
    | none => none
    | some (x, rest) =>
      match skipBlank rest with
      | ',' :: rest => elements? fuel (x :: before) rest
      | ']' :: rest => some (.array (x :: before).reverse, rest)
      | _ => none

/-- Reads the members of an object up to its closing brace, those in `before` being read. -/
def members? : Nat → List (Option String × Json) → List Char → Option (Json × List Char)
  | 0, _, _ => none
  | fuel + 1, before, cs =>
    match skipBlank cs with
    | '"' :: rest =>
      match literal? rest with
      | none => none
      | some (name, rest) =>
        match skipBlank rest with
        | ':' :: rest =>
          match value? fuel rest with
          | none => none
          | some (x, rest) =>
            match skipBlank rest with
            | ',' :: rest => members? fuel ((name, x) :: before) rest
            | '}' :: rest => some (.object ((name, x) :: before).reverse, rest)
            | _ => none
        | _ => none
    | _ => none

end

/-- Reads a text that holds one document and blanks around it. Every second step of the reading
takes a character, which bounds the steps. -/
def parse? (s : String) : Option Json :=
  let cs := s.toList
  match value? (2 * cs.length + 2) cs with
  | some (j, rest) => if (skipBlank rest).isEmpty then some j else none
  | none => none

end GemLink.Json
