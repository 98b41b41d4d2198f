/-!
Decimal numerals of whole numbers: how they are written and which texts are read as one. Text is
trimmed of white space before it is read as a number.
-/

namespace GemLink

namespace Text

/-- The code points with the Unicode property White_Space, as ranges. -/
def blankRanges : List (Nat × Nat) :=
  [(0x09, 0x0D), (0x20, 0x20), (0x85, 0x85), (0xA0, 0xA0), (0x1680, 0x1680), (0x2000, 0x200A),
   (0x2028, 0x2029), (0x202F, 0x202F), (0x205F, 0x205F), (0x3000, 0x3000)]

/-- Whether a character is white space. -/
def isBlank (c : Char) : Bool :=
  blankRanges.any fun (low, high) => low ≤ c.toNat && c.toNat ≤ high

/-- Drops the white space in front. -/
def trimFront (cs : List Char) : List Char :=
  cs.dropWhile isBlank

/-- Drops the white space at both ends. -/
def trim (cs : List Char) : List Char :=
  (trimFront (trimFront cs).reverse).reverse

end Text

namespace Numeral

/-- The digit character of a number below ten. -/
def digit (d : Nat) : Char :=
  Char.ofNat (48 + d)

/-- The value of a digit character. -/
def digitValue (c : Char) : Nat :=
  c.toNat - 48

/-- The numeral of a natural number, without leading zeros. -/
def ofNat (n : Nat) : List Char :=
  if n < 10 then [digit n] else ofNat (n / 10) ++ [digit (n % 10)]
termination_by n
decreasing_by omega

/-- The numeral of a whole number, with a minus sign in front of a negative one. -/
def ofInt : Int → List Char
  | .ofNat n => ofNat n
  | .negSucc n => '-' :: ofNat (n + 1)

/-- The number that a row of digits denotes. -/
def value (ds : List Char) : Nat :=
  ds.foldl (fun n c => 10 * n + digitValue c) 0

/-- Reads a row of at least one digit and nothing else. -/
def natural? (cs : List Char) : Option Nat :=
  if !cs.isEmpty && cs.all Char.isDigit then some (value cs) else none

/-- Reads a natural number, which may have a plus sign in front. -/
def unsigned? : List Char → Option Nat
  | '+' :: cs => natural? cs
  | cs => natural? cs

/-- Reads a whole number, which may have a sign in front. -/
def signed? : List Char → Option Int
  | '-' :: cs => (natural? cs).map fun n => -(n : Int)
  | cs => (unsigned? cs).map fun n => (n : Int)

/-- The optional sign and the row of digits at the front of a text, if it has a digit there. -/
def leading? (cs : List Char) : Option (List Char) :=
  match cs with
  | '+' :: rest => signedRow ['+'] rest
  | '-' :: rest => signedRow ['-'] rest
  | rest => signedRow [] rest
where
  /-- A sign followed by the digits in front of `rest`. -/
  signedRow (sign rest : List Char) : Option (List Char) :=
    match rest.takeWhile Char.isDigit with
    | [] => none
    | ds => some (sign ++ ds)

end Numeral

end GemLink
