import GemLink.Item.Wire

/-!
Reading a message body item by item. An item that cannot be decoded costs only itself where its
header tells how far it reaches; otherwise the reading goes to the end.
-/

namespace GemLink

/-- A place in a message body. -/
structure Cursor where
  /-- The number of bytes of the whole body. -/
  total : Nat
  /-- The bytes that are still to be read. -/
  rest : Bytes
  deriving DecidableEq, Repr

namespace Cursor

/-- The beginning of a body. -/
def ofBytes (bs : Bytes) : Cursor :=
  ⟨bs.length, bs⟩

/-- The number of bytes that have been read. -/
def position (c : Cursor) : Nat :=
  c.total - c.rest.length

/-- Whether everything has been read. -/
def atEnd (c : Cursor) : Bool :=
  c.rest.isEmpty

/-- Reads the header of a list: the number of its items. -/
def listHeader? (c : Cursor) : Option (Nat × Cursor) :=
  match Item.readHeader? c.rest with
  | some (.list, length, rest) => some (length, { c with rest })
  | _ => none

/-- What follows an item that cannot be decoded. -/
def skip (bs : Bytes) : Bytes :=
  match Item.readHeader? bs with
  | some (.list, _, _) => []
  | some (_, length, rest) =>
    match Bytes.split? length rest with
    | some (_, rest) => rest
    | none => []
  | none => []

/-- Reads an item, or passes over one that cannot be decoded. -/
def item (c : Cursor) : Option Item × Cursor :=
  match Item.read? Item.depthLimit c.rest with
  | some (item, rest) => (some item, { c with rest })
  | none => (none, { c with rest := skip c.rest })

/-- The identifier that an item is: a single unsigned number of at most four bytes. -/
def identifier? : Item → Option UInt32
  | .u4 [n] => some n
  | .u2 [n] => some n.toUInt32
  | .u1 [n] => some n.toUInt32
  | _ => none

/-- Reads an identifier, passing over an item that is none. -/
def identifier (c : Cursor) : Option UInt32 × Cursor :=
  let (item, c) := c.item
  (item.bind identifier?, c)

end Cursor

end GemLink
