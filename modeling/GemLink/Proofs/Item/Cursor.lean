import GemLink.Item.Cursor
import GemLink.Proofs.Item.RoundTrip

/-!
A cursor that stands before the bytes of an item reads that item and then stands behind it
(`item_encode`). The same holds of the front of a list (`listHeader?_encode`) and of an identifier,
which the equipment may write in one, two or four bytes (`identifier_encode`).
-/

namespace GemLink

/-- Whether an item is an identifier, written as a single unsigned number of one, two or four
bytes. -/
inductive Item.Names : Item → UInt32 → Prop
  | u1 (n : UInt8) : Names (.u1 [n]) n.toUInt32
  | u2 (n : UInt16) : Names (.u2 [n]) n.toUInt32
  | u4 (n : UInt32) : Names (.u4 [n]) n

/-- Whether an item is read wherever it stands: it nests no deeper than is allowed, and all its
lengths can be written. -/
def Item.Readable (item : Item) : Prop :=
  item.depth ≤ depthLimit ∧ item.Fits

theorem Item.Names.readable {item : Item} {id : UInt32} (h : item.Names id) : item.Readable := by
  cases h with
  | u1 n => exact ⟨Nat.zero_le _, (by decide : 1 < lengthLimit)⟩
  | u2 n => exact ⟨Nat.zero_le _, (by decide : 2 < lengthLimit)⟩
  | u4 n => exact ⟨Nat.zero_le _, (by decide : 4 < lengthLimit)⟩

namespace Cursor

variable {item : Item} {items : List Item} {id : UInt32} (total : Nat) (rest : Bytes)

theorem listHeader?_encode (h : items.length < Item.lengthLimit) :
    listHeader? ⟨total, (Item.list items).encode ++ rest⟩ =
      some (items.length, ⟨total, Item.encodeAll items ++ rest⟩) := by
  unfold listHeader?
  rw [Item.encode, List.append_assoc, Item.readHeader?_header .list h]

theorem item_encode (h : item.Readable) :
    Cursor.item ⟨total, item.encode ++ rest⟩ = (some item, ⟨total, rest⟩) := by
  unfold Cursor.item
  rw [Item.read?_encode item h.1 h.2]

theorem identifier_encode (h : item.Names id) :
    identifier ⟨total, item.encode ++ rest⟩ = (some id, ⟨total, rest⟩) := by
  unfold identifier
  rw [item_encode total rest h.readable]
  cases h <;> rfl

end Cursor

end GemLink
