import GemLink.Item.Wire
import GemLink.Proofs.Bytes
import GemLink.Proofs.Text.Utf8

/-!
An item is read back from its bytes, whatever follows them (`decode?_encode`). The header and the
payload are taken one by one (`readHeader?_header`, `ofPayload_payload`); lists are put together
from them by induction over the item (`read?_encode`), with one level of nesting for each list.
-/

namespace GemLink.Item

/-- Lengths below this one can be written. -/
def lengthLimit : Nat := 2 ^ 24

mutual

/-- How deep the lists of an item nest. -/
def depth : Item → Nat
  | .list items => depthAll items + 1
  | _ => 0

/-- How deep the lists of items in a row nest. -/
def depthAll : List Item → Nat
  | [] => 0
  | item :: rest => max (depth item) (depthAll rest)

end

mutual

/-- Whether all lengths in an item can be written. -/
def Fits : Item → Prop
  | .list items => items.length < lengthLimit ∧ FitsAll items
  | item => item.lengthField < lengthLimit

/-- Whether all lengths in items in a row can be written. -/
def FitsAll : List Item → Prop
  | [] => True
  | item :: rest => Fits item ∧ FitsAll rest

end

mutual

/-- Whether all lengths in an item can be written is decided by looking at them. -/
def decideFits : (item : Item) → Decidable item.Fits
  | .list items => @instDecidableAnd _ _ (Nat.decLt _ _) (decideFitsAll items)
  | .binary _ | .boolean _ | .ascii _ | .i1 _ | .i2 _ | .i4 _ | .i8 _ | .u1 _ | .u2 _ | .u4 _
  | .u8 _ | .f4 _ | .f8 _ => Nat.decLt _ _

/-- Whether all lengths in items in a row can be written is decided by looking at them. -/
def decideFitsAll : (items : List Item) → Decidable (FitsAll items)
  | [] => isTrue trivial
  | item :: rest => @instDecidableAnd _ _ (decideFits item) (decideFitsAll rest)

end

instance (item : Item) : Decidable item.Fits :=
  decideFits item

/-! ## Headers -/

theorem lengthWidth_pos (length : Nat) : 0 < lengthWidth length := by
  unfold lengthWidth
  split
  · decide
  · split <;> decide

theorem lengthWidth_lt (length : Nat) : lengthWidth length < 4 := by
  unfold lengthWidth
  split
  · decide
  · split <;> decide

theorem lt_pow_lengthWidth {length : Nat} (h : length < lengthLimit) :
    length < 256 ^ lengthWidth length := by
  unfold lengthLimit at h
  unfold lengthWidth
  split
  · omega
  · split <;> omega

@[simp] theorem length_header (format : ItemFormat) (length : Nat) :
    (header format length).length = 1 + lengthWidth length := by
  simp only [header, List.length_cons, Bytes.length_ofNat]
  omega

/-- The format and the width of the length share the first byte of a header. -/
theorem ofByte?_code (format : ItemFormat) {width : Nat} (h : width < 4) :
    ItemFormat.ofByte? (UInt8.ofNat (format.code.toNat + width)) = some format ∧
      (UInt8.ofNat (format.code.toNat + width)).toNat % 4 = width := by
  revert width
  cases format <;> decide

theorem split?_append_of_length {n : Nat} {front : Bytes} (h : front.length = n) (rest : Bytes) :
    Bytes.split? n (front ++ rest) = some (front, rest) := by
  rw [← h, Bytes.split?_append]

theorem readHeader?_header (format : ItemFormat) {length : Nat} (h : length < lengthLimit)
    (rest : Bytes) : readHeader? (header format length ++ rest) = some (format, length, rest) := by
  obtain ⟨hf, hw⟩ := ofByte?_code format (lengthWidth_lt length)
  have hp := lengthWidth_pos length
  unfold header
  rw [List.cons_append, readHeader?, hf]
  dsimp only
  rw [hw, if_neg (by omega), split?_append_of_length (Bytes.length_ofNat _ _), Option.map_some,
    Bytes.toNat_ofNat (lt_pow_lengthWidth h)]

/-! ## Payloads -/

theorem numbers_flatMap {α : Type} {width : Nat} (hw : 0 < width) {read : Nat → α} {write : α → Nat}
    (hread : ∀ x, read (write x) = x) (hwrite : ∀ x, write x < 256 ^ width) (xs : List α) :
    numbers width read (xs.flatMap fun x => Bytes.ofNat width (write x)) = xs := by
  unfold numbers
  rw [Bytes.length_flatMap_ofNat, Nat.mul_div_cancel _ hw, Bytes.groups_flatMap_ofNat, List.map_map]
  conv => rhs; rw [← List.map_id xs]
  apply List.map_congr_left
  intro x _
  show read (Bytes.toNat (Bytes.ofNat width (write x))) = x
  rw [Bytes.toNat_ofNat (hwrite x), hread]

theorem length_payload (item : Item) : item.format ≠ .list →
    item.payload.length = item.lengthField ∧ item.lengthField % item.format.width = 0 := by
  intro h
  cases item with
  | list items => exact absurd rfl h
  | ascii text => exact ⟨Utf8.length_encode text, Nat.mod_one _⟩
  | binary bytes => exact ⟨rfl, Nat.mod_one _⟩
  | u1 numbers => exact ⟨rfl, Nat.mod_one _⟩
  | boolean flags => exact ⟨List.length_map _, Nat.mod_one _⟩
  | i1 numbers => exact ⟨List.length_map _, Nat.mod_one _⟩
  | i2 numbers => exact ⟨Bytes.length_flatMap_ofNat _ _ _, Nat.mul_mod_left _ _⟩
  | i4 numbers => exact ⟨Bytes.length_flatMap_ofNat _ _ _, Nat.mul_mod_left _ _⟩
  | i8 numbers => exact ⟨Bytes.length_flatMap_ofNat _ _ _, Nat.mul_mod_left _ _⟩
  | u2 numbers => exact ⟨Bytes.length_flatMap_ofNat _ _ _, Nat.mul_mod_left _ _⟩
  | u4 numbers => exact ⟨Bytes.length_flatMap_ofNat _ _ _, Nat.mul_mod_left _ _⟩
  | u8 numbers => exact ⟨Bytes.length_flatMap_ofNat _ _ _, Nat.mul_mod_left _ _⟩
  | f4 numbers => exact ⟨Bytes.length_flatMap_ofNat _ _ _, Nat.mul_mod_left _ _⟩
  | f8 numbers => exact ⟨Bytes.length_flatMap_ofNat _ _ _, Nat.mul_mod_left _ _⟩

/-- The contents of an item that is not a list are read back. -/
theorem ofPayload_payload (item : Item) (h : item.format ≠ .list) :
    ofPayload item.payload item.format = item := by
  cases item with
  | list items => exact absurd rfl h
  | ascii text => exact congrArg ascii (Utf8.decodeLossy_encode text)
  | binary bytes => rfl
  | u1 numbers => rfl
  | boolean flags =>
    have hb : ((fun b : UInt8 => b != 0) ∘ fun b : Bool => if b then 1 else 0) = id := by
      funext b
      cases b <;> rfl
    show boolean _ = _
    rw [payload, List.map_map, hb, List.map_id]
  | i1 numbers =>
    have hn : UInt8.toInt8 ∘ Int8.toUInt8 = id := by
      funext n
      exact Int8.toInt8_toUInt8 n
    show i1 _ = _
    rw [payload, List.map_map, hn, List.map_id]
  | i2 numbers =>
    exact congrArg i2 (numbers_flatMap (by decide) (fun n => by simp) (fun n => n.toUInt16.toNat_lt)
      numbers)
  | i4 numbers =>
    exact congrArg i4 (numbers_flatMap (by decide) (fun n => by simp) (fun n => n.toUInt32.toNat_lt)
      numbers)
  | i8 numbers =>
    exact congrArg i8 (numbers_flatMap (by decide) (fun n => by simp) (fun n => n.toUInt64.toNat_lt)
      numbers)
  | u2 numbers =>
    exact congrArg u2 (numbers_flatMap (by decide) (fun n => by simp) (fun n => n.toNat_lt) numbers)
  | u4 numbers =>
    exact congrArg u4 (numbers_flatMap (by decide) (fun n => by simp) (fun n => n.toNat_lt) numbers)
  | u8 numbers =>
    exact congrArg u8 (numbers_flatMap (by decide) (fun n => by simp) (fun n => n.toNat_lt) numbers)
  | f4 numbers =>
    exact congrArg f4 (numbers_flatMap (by decide) (fun x => by simp) (fun x => x.bits.toNat_lt)
      numbers)
  | f8 numbers =>
    exact congrArg f8 (numbers_flatMap (by decide) (fun x => by simp) (fun x => x.bits.toNat_lt)
      numbers)

/-! ## Items -/

/-- Induction over an item: what is no list, and lists of items for which it holds. -/
theorem induction {P : Item → Prop} (flat : ∀ item, item.format ≠ .list → P item)
    (list : ∀ items, (∀ item ∈ items, P item) → P (.list items)) (item : Item) : P item := by
  refine @Item.rec P (fun items => ∀ item ∈ items, P item) list ?_ ?_ ?_ ?_ ?_ ?_ ?_ ?_ ?_ ?_ ?_ ?_
    ?_ (by simp) (fun item rest h hr => List.forall_mem_cons.mpr ⟨h, hr⟩) item <;>
  · intro contents
    apply flat
    nofun

theorem encode_of_flat {item : Item} (h : item.format ≠ .list) :
    item.encode = header item.format item.lengthField ++ item.payload := by
  cases item with
  | list items => exact absurd rfl h
  | _ => rfl

theorem encodedSize_of_flat {item : Item} (h : item.format ≠ .list) :
    item.encodedSize = 1 + lengthWidth item.lengthField + item.lengthField := by
  cases item with
  | list items => exact absurd rfl h
  | _ => rfl

theorem Fits.lengthField_lt {item : Item} (h : item.Fits) : item.lengthField < lengthLimit := by
  cases item with
  | list items => exact h.1
  | _ => exact h

theorem fits_of_fitsAll {items : List Item} (h : FitsAll items) : ∀ item ∈ items, item.Fits := by
  induction items with
  | nil => simp
  | cons item rest ih => exact List.forall_mem_cons.mpr ⟨h.1, ih h.2⟩

theorem depth_le_depthAll (items : List Item) : ∀ item ∈ items, item.depth ≤ depthAll items := by
  induction items with
  | nil => simp
  | cons item rest ih =>
    rw [List.forall_mem_cons, depthAll]
    refine ⟨Nat.le_max_left _ _, fun other ho => ?_⟩
    exact Nat.le_trans (ih other ho) (Nat.le_max_right _ _)

theorem encodeAll_append (items more : List Item) :
    encodeAll (items ++ more) = encodeAll items ++ encodeAll more := by
  induction items with
  | nil => rfl
  | cons item rest ih => rw [List.cons_append, encodeAll, encodeAll, ih, List.append_assoc]

/-! ## Sizes -/

theorem length_encodeAll {items : List Item}
    (h : ∀ item ∈ items, item.encode.length = item.encodedSize) :
    (encodeAll items).length = encodedSizeAll items := by
  induction items with
  | nil => rfl
  | cons item rest ih =>
    rw [List.forall_mem_cons] at h
    rw [encodeAll, encodedSizeAll, List.length_append, h.1, ih h.2]

/-- The size of an item is found without writing it. -/
theorem length_encode (item : Item) : item.encode.length = item.encodedSize := by
  induction item using Item.induction with
  | flat item h =>
    rw [encode_of_flat h, encodedSize_of_flat h, List.length_append, length_header,
      (length_payload item h).1]
  | list items ih => rw [encode, encodedSize, List.length_append, length_header, length_encodeAll ih]

/-! ## Reading -/

theorem read?_of_flat {levels : Nat} {bs rest : Bytes} {format : ItemFormat} {length : Nat}
    (hf : format ≠ .list) (h : readHeader? bs = some (format, length, rest)) :
    read? levels bs =
      match Bytes.split? length rest with
      | none => none
      | some (contents, rest) =>
        if length % format.width = 0 then some (ofPayload contents format, rest) else none := by
  unfold read?
  rw [h]
  cases format with
  | list => exact absurd rfl hf
  | _ => rfl

theorem read?_of_list {levels : Nat} {bs rest : Bytes} {length : Nat}
    (h : readHeader? bs = some (.list, length, rest)) :
    read? (levels + 1) bs =
      (readAll (read? levels) [] length rest).map fun (items, rest) => (.list items, rest) := by
  rw [read?, h]

/-- What reads each item of a row from its bytes reads the row from its bytes. -/
theorem readAll_encodeAll {read : Bytes → Option (Item × Bytes)} {items : List Item}
    (h : ∀ item ∈ items, ∀ rest, read (item.encode ++ rest) = some (item, rest))
    (before : List Item) (rest : Bytes) :
    readAll read before items.length (encodeAll items ++ rest) =
      some (before.reverse ++ items, rest) := by
  induction items generalizing before with
  | nil => simp [readAll, encodeAll]
  | cons item others ih =>
    rw [List.forall_mem_cons] at h
    rw [List.length_cons, readAll, encodeAll, List.append_assoc, h.1]
    dsimp only
    rw [ih h.2, List.reverse_cons, List.append_assoc, List.singleton_append]

/-- An item is read from the front of any bytes that begin with its own, if its lists nest no deeper
than is allowed. -/
theorem read?_encode (item : Item) {levels : Nat} (hd : item.depth ≤ levels) (hf : item.Fits)
    (rest : Bytes) : read? levels (item.encode ++ rest) = some (item, rest) := by
  induction item using Item.induction generalizing levels rest with
  | flat item h =>
    obtain ⟨hp, hw⟩ := length_payload item h
    rw [encode_of_flat h, List.append_assoc,
      read?_of_flat h (readHeader?_header item.format hf.lengthField_lt _),
      split?_append_of_length hp]
    dsimp only
    rw [if_pos hw, ofPayload_payload item h]
  | list items ih =>
    cases levels with
    | zero => exact absurd hd (Nat.not_succ_le_zero _)
    | succ levels =>
      obtain ⟨hl, hs⟩ := hf
      have hr : ∀ item ∈ items, ∀ rest, read? levels (item.encode ++ rest) = some (item, rest) := by
        intro item hi
        have hle : item.depth ≤ levels :=
          Nat.le_trans (depth_le_depthAll items item hi) (Nat.le_of_succ_le_succ hd)
        exact ih item hi hle (fits_of_fitsAll hs item hi)
      rw [encode, List.append_assoc, read?_of_list (readHeader?_header .list hl _),
        readAll_encodeAll hr, Option.map_some, List.reverse_nil, List.nil_append]

/-- An item whose lists nest no deeper than is allowed and whose lengths can be written is decoded
from its bytes, bit by bit, whatever follows them, and has as many bytes as its size says. -/
theorem decode?_encode (item : Item) (rest : Bytes) (hd : item.depth ≤ depthLimit)
    (hf : item.Fits) :
    decode? (item.encode ++ rest) = some (item, item.encodedSize) ∧
      item.encode.length = item.encodedSize := by
  have hl := length_encode item
  refine ⟨?_, hl⟩
  unfold decode?
  rw [read?_encode item hd hf, Option.map_some]
  dsimp only
  rw [List.length_append, Nat.add_sub_cancel, hl]

theorem decode?_encode_nested :
    decode? ((list [.ascii "°C", .list [.i2 [-7], .f4 [⟨0x7FC00001⟩]], .boolean [true]]).encode ++
        [0x00, 0xFF]) =
      some (list [.ascii "°C", .list [.i2 [-7], .f4 [⟨0x7FC00001⟩]], .boolean [true]], 22) :=
  (decode?_encode (list [.ascii "°C", .list [.i2 [-7], .f4 [⟨0x7FC00001⟩]], .boolean [true]])
    [0x00, 0xFF] (by decide) (by decide)).1

end GemLink.Item
