import GemLink.Bytes
import GemLink.Item.Basic
import GemLink.Text.Utf8

/-!
Data items on the wire. An item is a header and its contents: the header is the format byte, whose
two low bits count the one to three big-endian length bytes that follow it. The length counts the
items of a list and the bytes of everything else. Lists nest at most `depthLimit` deep.
-/

namespace GemLink.Item

/-- How deep lists may nest. -/
def depthLimit : Nat := 32

/-- The number of length bytes that a length is written with. -/
def lengthWidth (length : Nat) : Nat :=
  if length < 0x100 then 1 else if length < 0x10000 then 2 else 3

/-- The header of an item; of a length that takes more than three bytes the lowest three stay. -/
def header (format : ItemFormat) (length : Nat) : Bytes :=
  let width := lengthWidth length
  UInt8.ofNat (format.code.toNat + width) :: Bytes.ofNat width length

/-- The contents of an item that is not a list. -/
def payload : Item → Bytes
  | .list _ => []
  | .binary bytes => bytes
  | .boolean flags => flags.map fun b => if b then 1 else 0
  | .ascii text => Utf8.encode text
  | .i1 numbers => numbers.map Int8.toUInt8
  | .i2 numbers => numbers.flatMap fun n => Bytes.ofNat 2 n.toUInt16.toNat
  | .i4 numbers => numbers.flatMap fun n => Bytes.ofNat 4 n.toUInt32.toNat
  | .i8 numbers => numbers.flatMap fun n => Bytes.ofNat 8 n.toUInt64.toNat
  | .u1 numbers => numbers
  | .u2 numbers => numbers.flatMap fun n => Bytes.ofNat 2 n.toNat
  | .u4 numbers => numbers.flatMap fun n => Bytes.ofNat 4 n.toNat
  | .u8 numbers => numbers.flatMap fun n => Bytes.ofNat 8 n.toNat
  | .f4 numbers => numbers.flatMap fun x => Bytes.ofNat 4 x.bits.toNat
  | .f8 numbers => numbers.flatMap fun x => Bytes.ofNat 8 x.bits.toNat

/-- The length that the header of an item announces. -/
def lengthField : Item → Nat
  | .list items => items.length
  | .ascii text => Utf8.size text
  | .binary bytes => bytes.length
  | .boolean flags => flags.length
  | .i1 numbers => numbers.length
  | .i2 numbers => numbers.length * 2
  | .i4 numbers => numbers.length * 4
  | .i8 numbers => numbers.length * 8
  | .u1 numbers => numbers.length
  | .u2 numbers => numbers.length * 2
  | .u4 numbers => numbers.length * 4
  | .u8 numbers => numbers.length * 8
  | .f4 numbers => numbers.length * 4
  | .f8 numbers => numbers.length * 8

mutual

/-- The bytes of an item. -/
def encode : Item → Bytes
  | .list items => header .list items.length ++ encodeAll items
  | item => header item.format item.lengthField ++ item.payload

/-- The bytes of items in a row. -/
def encodeAll : List Item → Bytes
  | [] => []
  | item :: rest => encode item ++ encodeAll rest

end

mutual

/-- The number of bytes of an item, found without writing them. -/
def encodedSize : Item → Nat
  | .list items => 1 + lengthWidth items.length + encodedSizeAll items
  | item => 1 + lengthWidth item.lengthField + item.lengthField

/-- The number of bytes of items in a row. -/
def encodedSizeAll : List Item → Nat
  | [] => 0
  | item :: rest => encodedSize item + encodedSizeAll rest

end

/-- Reads a header: the format, the length it announces, and the bytes behind it. -/
def readHeader? : Bytes → Option (ItemFormat × Nat × Bytes)
  | [] => none
  | first :: rest =>
    match ItemFormat.ofByte? first with
    | none => none
    | some format =>
      let width := first.toNat % 4
      if width = 0 then none
      else (Bytes.split? width rest).map fun (length, rest) => (format, Bytes.toNat length, rest)

/-- The numbers of `width` bytes that a payload holds. -/
def numbers {α : Type} (width : Nat) (read : Nat → α) (bs : Bytes) : List α :=
  (Bytes.groups width (bs.length / width) bs).map fun group => read (Bytes.toNat group)

/-- The item of a format with the given payload. Any byte but zero is true, and malformed text is
read with replacement characters. -/
def ofPayload (bs : Bytes) : ItemFormat → Item
  | .list => .list []
  | .binary => .binary bs
  | .boolean => .boolean (bs.map (· != 0))
  | .ascii => .ascii (Utf8.decodeLossy bs)
  | .i1 => .i1 (bs.map UInt8.toInt8)
  | .i2 => .i2 (numbers 2 (fun n => (UInt16.ofNat n).toInt16) bs)
  | .i4 => .i4 (numbers 4 (fun n => (UInt32.ofNat n).toInt32) bs)
  | .i8 => .i8 (numbers 8 (fun n => (UInt64.ofNat n).toInt64) bs)
  | .u1 => .u1 bs
  | .u2 => .u2 (numbers 2 UInt16.ofNat bs)
  | .u4 => .u4 (numbers 4 UInt32.ofNat bs)
  | .u8 => .u8 (numbers 8 UInt64.ofNat bs)
  | .f4 => .f4 (numbers 4 (fun n => ⟨UInt32.ofNat n⟩) bs)
  | .f8 => .f8 (numbers 8 (fun n => ⟨UInt64.ofNat n⟩) bs)

/-- Reads `count` items in a row, each with `read`; `before` holds those already read, the last one
first. -/
def readAll (read : Bytes → Option (Item × Bytes)) (before : List Item) :
    Nat → Bytes → Option (List Item × Bytes)
  | 0, bs => some (before.reverse, bs)
  | count + 1, bs =>
    match read bs with
    | none => none
    | some (item, rest) => readAll read (item :: before) count rest

/-- Reads an item from the front of a byte string in which lists may nest `levels` deep. -/
def read? : Nat → Bytes → Option (Item × Bytes)
  | levels, bs =>
    match readHeader? bs with
    | none => none
    | some (.list, length, rest) =>
      match levels with
      | 0 => none
      | levels + 1 => (readAll (read? levels) [] length rest).map fun (items, rest) =>
        (.list items, rest)
    | some (format, length, rest) =>
      match Bytes.split? length rest with
      | none => none
      | some (contents, rest) =>
        if length % format.width = 0 then some (ofPayload contents format, rest) else none

/-- Reads an item from the front of a byte string: the item and the number of bytes it takes. -/
def decode? (bs : Bytes) : Option (Item × Nat) :=
  (read? depthLimit bs).map fun (item, rest) => (item, bs.length - rest.length)

end GemLink.Item
