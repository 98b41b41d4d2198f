import GemLink.Json.Basic
import GemLink.Number.Decimal
import GemLink.Text.Numeral

/-!
The values of variables as the host sees them: their text, their JSON form, and their readings as
whole numbers, as a real number and as a truth value.
-/

namespace GemLink

/-- A value of a variable. -/
inductive Value where
  /-- A signed whole number. -/
  | int (n : Int64)
  /-- An unsigned whole number. -/
  | nat (n : UInt64)
  /-- A real number. -/
  | real (x : Double)
  /-- A truth value. -/
  | flag (b : Bool)
  /-- A text. -/
  | text (s : String)
  /-- A row of values. -/
  | array (values : List Value)
  deriving Inhabited

/-- The 64-bit signed number that equals `i`, if there is one. -/
def int64? (i : Int) : Option Int64 :=
  if Int64.minValue.toInt ≤ i ∧ i ≤ Int64.maxValue.toInt then some (Int64.ofInt i) else none

/-- The 64-bit unsigned number that equals `i`, if there is one. -/
def uint64? (i : Int) : Option UInt64 :=
  if 0 ≤ i ∧ i.toNat < UInt64.size then some (UInt64.ofNat i.toNat) else none

/-- The 64-bit signed number nearest to `i`. -/
def int64Near (i : Int) : Int64 :=
  Int64.ofInt (max Int64.minValue.toInt (min i Int64.maxValue.toInt))

/-- The 64-bit unsigned number nearest to `i`. -/
def uint64Near (i : Int) : UInt64 :=
  UInt64.ofNat (min i.toNat (UInt64.size - 1))

namespace Value

/-- Real numbers in texts have no exponent, and whole ones no point; a half goes up. -/
def textLayout : DecimalLayout := ⟨.up, fun _ => true, false⟩

/-- Real numbers in JSON have an exponent below `1e-5` and from `1e16` on, and always a point or an
exponent; a half goes to the even digit. -/
def jsonLayout : DecimalLayout := ⟨.even, fun place => -5 ≤ place && place < 16, true⟩

/-- The text of a real number. -/
def realText (x : Double) : String :=
  match x.unpack with
  | .nan _ _ => "NaN"
  | .infinite negative => if negative then "-inf" else "inf"
  | .finite _ _ _ => String.ofList ((x.finiteText? textLayout).getD [])

mutual

/-- The text of a value; an array is written in brackets with commas between its elements. -/
def display : Value → String
  | .int n => String.ofList (Numeral.ofInt n.toInt)
  | .nat n => String.ofList (Numeral.ofNat n.toNat)
  | .real x => realText x
  | .flag b => if b then "true" else "false"
  | .text s => s
  | .array values => "[" ++ displayRow values ++ "]"

/-- The text between the brackets of an array. -/
def displayRow : List Value → String
  | [] => ""
  | [v] => display v
  | v :: rest => display v ++ "," ++ displayRow rest

end

mutual

/-- The JSON form of a value; infinities and NaN have none and become `null`. -/
def toJson : Value → Json
  | .int n => .ofInt n.toInt
  | .nat n => .ofNat n.toNat
  | .real x => .ofOption (fun cs => .number (String.ofList cs)) (x.finiteText? jsonLayout)
  | .flag b => .bool b
  | .text s => .ofText s
  | .array values => .array (toJsonRow values)

/-- The JSON forms of a row of values. -/
def toJsonRow : List Value → List Json
  | [] => []
  | v :: rest => toJson v :: toJsonRow rest

end

/-- The value as a signed number: real numbers must be whole and are clamped to the range, texts are
read as decimal numerals. -/
def toInt64? : Value → Option Int64
  | .int n => some n
  | .nat n => int64? n.toNat
  | .real x => x.toInt?.map int64Near
  | .flag b => some (if b then 1 else 0)
  | .text s => (Numeral.signed? (Text.trim s.toList)).bind int64?
  | .array _ => none

/-- The value as an unsigned number: real numbers must be whole and not negative and are clamped to
the range, texts are read as decimal numerals. -/
def toUInt64? : Value → Option UInt64
  | .int n => uint64? n.toInt
  | .nat n => some n
  | .real x => x.toInt?.bind fun i => if 0 ≤ i then some (uint64Near i) else none
  | .flag b => some (if b then 1 else 0)
  | .text s => (Numeral.unsigned? (Text.trim s.toList)).bind fun n => uint64? n
  | .array _ => none

/-- The value as a real number. -/
def toDouble? : Value → Option Double
  | .int n => some (Double.ofInt n.toInt)
  | .nat n => some (Double.ofInt n.toNat)
  | .real x => some x
  | .flag b => some (Double.ofInt (if b then 1 else 0))
  | .text s => Double.ofText? (Text.trim s.toList)
  | .array _ => none

/-- The value as a truth value: a number is true unless it is zero, and a text only if it is
`true` or `1`. -/
def toBool? : Value → Option Bool
  | .int n => some (n != 0)
  | .nat n => some (n != 0)
  | .real x => some (!x.isZero)
  | .flag b => some b
  | .text s => some (s == "true" || s == "1")
  | .array _ => none

end Value

end GemLink
