import GemLink.Item.Basic
import GemLink.Machine.Basic
import GemLink.Text.Utf8
import GemLink.Value

/-!
From the data of an item to the value of a variable, and from the value that the host writes to the
item that is sent. A variable's format says what kind of value it has: a text for `char`, a truth
value for `bool` and a number for all others.

Whole numbers are sent exactly or not at all, but for real numbers beyond 64 bits, of which the
nearest limit is sent; texts are cut to what an item of one length byte holds.
-/

namespace GemLink

namespace Datum

/-- The whole number at the front of a text, white space in front of it and anything behind it
aside, if it is a 64-bit signed number. -/
def leadingInt? (s : String) : Option Int64 :=
  ((Numeral.leading? (Text.trimFront s.toList)).bind Numeral.signed?).bind int64?

/-- Whether a character can be part of a decimal. -/
def isDecimalChar (c : Char) : Bool :=
  c.isDigit || c == '+' || c == '-' || c == '.' || c == 'e' || c == 'E'

/-- The number that is the longest decimal at the front of a text, white space in front of it
aside. -/
def leadingReal? (s : String) : Option Double :=
  let row := (Text.trimFront s.toList).takeWhile isDecimalChar
  (List.range row.length).reverse.findSome? fun n => Double.ofText? (row.take (n + 1))

/-- The value of one datum in a format; a row has none. -/
def scalar? (format : VariableFormat) : Datum → Option Value
  | .text s =>
    match format with
    | .char => some (.text s)
    | .bool => some (.flag (s == "true" || s == "1"))
    | .float | .double => (leadingReal? s).map .real
    | _ => (leadingInt? s).map .int
  | .flag b =>
    match format with
    | .char => some (.text (if b then "1" else "0"))
    | .bool => some (.flag b)
    | _ => some (.int (if b then 1 else 0))
  | .int n =>
    match format with
    | .char => some (.text (String.ofList (Numeral.ofInt n.toInt)))
    | .bool => some (.flag (n != 0))
    | _ => some (.int n)
  | .nat n =>
    match format with
    | .char => some (.text (String.ofList (Numeral.ofNat n.toNat)))
    | .bool => some (.flag (n != 0))
    | _ => some (.nat n)
  | .real x =>
    match format with
    | .char => some (.text (Value.realText x))
    | .bool => some (.flag (!x.isZero))
    | _ => some (.real x)
  | .array _ => none

end Datum

/-- The value of a variable that was received as a datum. An array variable takes a row as it is and
a single datum as a row of one; any other variable takes the first datum of a row. -/
def Variable.read? (v : Variable) : Datum → Option Value
  | .array data =>
    if v.array then (data.mapM (Datum.scalar? v.format)).map .array
    else data.head?.bind (Datum.scalar? v.format)
  | d =>
    if v.array then (Datum.scalar? v.format d).map fun value => .array [value]
    else Datum.scalar? v.format d

/-- The greatest number of bytes of a written text. -/
def writtenTextSize : Nat := 255

/-- The item that carries a value to a variable, if the value fits the format of the variable. -/
def Variable.write? (v : Variable) (value : Value) : Option Item :=
  match v.format with
  | .char => some (.ascii (String.ofList (Utf8.front writtenTextSize value.display.toList)))
  | .bool => value.toBool?.map fun b => .boolean [b]
  | .int8 => (between Int8.minValue.toInt Int8.maxValue.toInt).map fun i => .i1 [Int8.ofInt i]
  | .int16 => (between Int16.minValue.toInt Int16.maxValue.toInt).map fun i => .i2 [Int16.ofInt i]
  | .int32 => (between Int32.minValue.toInt Int32.maxValue.toInt).map fun i => .i4 [Int32.ofInt i]
  | .int64 => value.toInt64?.map fun n => .i8 [n]
  | .uint8 => (below UInt8.size).map fun n => .u1 [UInt8.ofNat n]
  | .uint16 => (below UInt16.size).map fun n => .u2 [UInt16.ofNat n]
  | .uint32 => (below UInt32.size).map fun n => .u4 [UInt32.ofNat n]
  | .uint64 => value.toUInt64?.map fun n => .u8 [n]
  | .float => value.toDouble?.map fun x => .f4 [x.toSingle]
  | .double => value.toDouble?.map fun x => .f8 [x]
where
  /-- The value as a signed number that lies between two others. -/
  between (least greatest : Int) : Option Int :=
    value.toInt64?.bind fun n =>
      if least ≤ n.toInt ∧ n.toInt ≤ greatest then some n.toInt else none
  /-- The value as an unsigned number below a bound. -/
  below (bound : Nat) : Option Nat :=
    value.toUInt64?.bind fun n => if n.toNat < bound then some n.toNat else none

/-- The item that carries the identifier of an equipment constant: of two bytes if it fits. -/
def constantIdItem (id : UInt32) : Item :=
  if id.toNat < UInt16.size then .u2 [id.toUInt16] else .u4 [id]

end GemLink
