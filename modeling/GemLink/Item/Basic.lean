import GemLink.Number.Binary

/-!
Data items: the typed values that message bodies are made of, the format codes that announce them on
the wire, and the plain data that an item stands for.
-/

namespace GemLink

/-- The formats of data items. -/
inductive ItemFormat where
  | list
  | binary
  | boolean
  | ascii
  | i8
  | i1
  | i2
  | i4
  | f8
  | f4
  | u8
  | u1
  | u2
  | u4
  deriving DecidableEq, Repr

namespace ItemFormat

/-- The format code, whose two low bits are clear. -/
def code : ItemFormat → UInt8
  | .list => 0x00
  | .binary => 0x20
  | .boolean => 0x24
  | .ascii => 0x40
  | .i8 => 0x60
  | .i1 => 0x64
  | .i2 => 0x68
  | .i4 => 0x70
  | .f8 => 0x80
  | .f4 => 0x90
  | .u8 => 0xA0
  | .u1 => 0xA4
  | .u2 => 0xA8
  | .u4 => 0xB0

/-- The format announced by a format byte, whose two low bits count the bytes of the length. -/
def ofByte? (b : UInt8) : Option ItemFormat :=
  match b.toNat / 4 with
  | 0x00 => some .list
  | 0x08 => some .binary
  | 0x09 => some .boolean
  | 0x10 => some .ascii
  | 0x18 => some .i8
  | 0x19 => some .i1
  | 0x1A => some .i2
  | 0x1C => some .i4
  | 0x20 => some .f8
  | 0x24 => some .f4
  | 0x28 => some .u8
  | 0x29 => some .u1
  | 0x2A => some .u2
  | 0x2C => some .u4
  | _ => none

/-- The bytes of one element; a list has elements of no fixed width. -/
def width : ItemFormat → Nat
  | .list => 0
  | .binary | .boolean | .ascii | .i1 | .u1 => 1
  | .i2 | .u2 => 2
  | .i4 | .u4 | .f4 => 4
  | .i8 | .u8 | .f8 => 8

end ItemFormat

/-- A data item. -/
inductive Item where
  /-- A list of items. -/
  | list (items : List Item)
  /-- Bytes without further meaning. -/
  | binary (bytes : List UInt8)
  /-- Truth values. -/
  | boolean (flags : List Bool)
  /-- A text. -/
  | ascii (text : String)
  /-- Signed numbers of one byte. -/
  | i1 (numbers : List Int8)
  /-- Signed numbers of two bytes. -/
  | i2 (numbers : List Int16)
  /-- Signed numbers of four bytes. -/
  | i4 (numbers : List Int32)
  /-- Signed numbers of eight bytes. -/
  | i8 (numbers : List Int64)
  /-- Unsigned numbers of one byte. -/
  | u1 (numbers : List UInt8)
  /-- Unsigned numbers of two bytes. -/
  | u2 (numbers : List UInt16)
  /-- Unsigned numbers of four bytes. -/
  | u4 (numbers : List UInt32)
  /-- Unsigned numbers of eight bytes. -/
  | u8 (numbers : List UInt64)
  /-- Real numbers of single precision. -/
  | f4 (numbers : List Single)
  /-- Real numbers of double precision. -/
  | f8 (numbers : List Double)
  deriving Inhabited

/-- The format of an item. -/
def Item.format : Item → ItemFormat
  | .list _ => .list
  | .binary _ => .binary
  | .boolean _ => .boolean
  | .ascii _ => .ascii
  | .i1 _ => .i1
  | .i2 _ => .i2
  | .i4 _ => .i4
  | .i8 _ => .i8
  | .u1 _ => .u1
  | .u2 _ => .u2
  | .u4 _ => .u4
  | .u8 _ => .u8
  | .f4 _ => .f4
  | .f8 _ => .f8

/-- What an item stands for once its format is forgotten. -/
inductive Datum where
  /-- A signed number. -/
  | int (n : Int64)
  /-- An unsigned number. -/
  | nat (n : UInt64)
  /-- A real number. -/
  | real (x : Double)
  /-- A truth value. -/
  | flag (b : Bool)
  /-- A text. -/
  | text (s : String)
  /-- A row of data. -/
  | array (data : List Datum)
  deriving Inhabited

/-- A row of exactly one datum stands for that datum. -/
def Datum.collapse : List Datum → Datum
  | [d] => d
  | data => .array data

namespace Item

mutual

/-- What an item stands for. -/
def datum : Item → Datum
  | .list items => .array (dataOf items)
  | .ascii text => .text text
  | .binary bytes => .collapse (bytes.map fun b => .nat b.toUInt64)
  | .boolean flags => .collapse (flags.map .flag)
  | .i1 numbers => .collapse (numbers.map fun n => .int n.toInt64)
  | .i2 numbers => .collapse (numbers.map fun n => .int n.toInt64)
  | .i4 numbers => .collapse (numbers.map fun n => .int n.toInt64)
  | .i8 numbers => .collapse (numbers.map .int)
  | .u1 numbers => .collapse (numbers.map fun n => .nat n.toUInt64)
  | .u2 numbers => .collapse (numbers.map fun n => .nat n.toUInt64)
  | .u4 numbers => .collapse (numbers.map fun n => .nat n.toUInt64)
  | .u8 numbers => .collapse (numbers.map .nat)
  | .f4 numbers => .collapse (numbers.map fun x => .real x.toDouble)
  | .f8 numbers => .collapse (numbers.map .real)

/-- What the items of a row stand for. -/
def dataOf : List Item → List Datum
  | [] => []
  | item :: rest => datum item :: dataOf rest

end

end Item

end GemLink
