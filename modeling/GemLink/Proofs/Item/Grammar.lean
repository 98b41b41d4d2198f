import GemLink.Proofs.Item.RoundTrip

/-!
The grammar of data items on the wire, and the reader that accepts exactly its words
(`decode?_eq_some_iff`). The grammar does not mention the reader: an item is a header of one to
three length bytes and, behind it, as many items or as many bytes of payload as the header
announces. What the reader accepts is taken apart by the levels it may still descend
(`encoding_of_read?`); what the grammar allows is read by induction over the item
(`read?_of_encoding`), and that already makes an encoding the only one at the front of its bytes.
-/

namespace GemLink.Item

/-! ## The grammar -/

/-- Values in a row, each said by the big-endian number of the next `width` bytes. -/
inductive Row {α : Type} (width : Nat) (Says : Nat → α → Prop) : List α → Bytes → Prop
  | nil : Row width Says [] []
  | cons {x : α} {xs : List α} {group bs : Bytes} : group.length = width →
      Says (Bytes.toNat group) x → Row width Says xs bs → Row width Says (x :: xs) (group ++ bs)

/-- What a payload says of an item that is not a list. Numbers are written by their bit patterns,
any truth value but false by any number but zero, and texts may be malformed. -/
def Carries (bs : Bytes) : Item → Prop
  | .list _ => False
  | .ascii text => text = Utf8.decodeLossy bs
  | .binary bytes => Row 1 (fun n b => b.toNat = n) bytes bs
  | .boolean flags => Row 1 (fun n b => b = true ↔ n ≠ 0) flags bs
  | .i1 numbers => Row 1 (fun n x => x.toUInt8.toNat = n) numbers bs
  | .i2 numbers => Row 2 (fun n x => x.toUInt16.toNat = n) numbers bs
  | .i4 numbers => Row 4 (fun n x => x.toUInt32.toNat = n) numbers bs
  | .i8 numbers => Row 8 (fun n x => x.toUInt64.toNat = n) numbers bs
  | .u1 numbers => Row 1 (fun n x => x.toNat = n) numbers bs
  | .u2 numbers => Row 2 (fun n x => x.toNat = n) numbers bs
  | .u4 numbers => Row 4 (fun n x => x.toNat = n) numbers bs
  | .u8 numbers => Row 8 (fun n x => x.toNat = n) numbers bs
  | .f4 numbers => Row 4 (fun n x => x.bits.toNat = n) numbers bs
  | .f8 numbers => Row 8 (fun n x => x.bits.toNat = n) numbers bs

/-- One to three bytes are the big-endian number `n`. -/
structure IsLength (length : Bytes) (n : Nat) : Prop where
  pos : 1 ≤ length.length
  le : length.length ≤ 3
  toNat : Bytes.toNat length = n

/-- The header with the given length bytes, which the first byte counts. -/
def headerOf (format : ItemFormat) (length : Bytes) : Bytes :=
  UInt8.ofNat (format.code.toNat + length.length) :: length

/-- What an encoding holds for one item alone, without the items within it. -/
structure Part where
  /-- The format that the header announces. -/
  format : ItemFormat
  /-- The length bytes of the header. -/
  length : Bytes
  /-- The payload, which is empty in a list. -/
  payload : Bytes

mutual

/-- The bytes are an encoding of the item, of which every part satisfies `P`. -/
inductive Encoding (P : Part → Prop) : Item → Bytes → Prop
  | flat {item : Item} {length payload : Bytes} : IsLength length payload.length →
      Carries payload item → P ⟨item.format, length, payload⟩ →
      Encoding P item (headerOf item.format length ++ payload)
  | list {items : List Item} {length body : Bytes} : IsLength length items.length →
      EncodingAll P items body → P ⟨.list, length, []⟩ →
      Encoding P (.list items) (headerOf .list length ++ body)

/-- The bytes are encodings of the items in a row, of which every part satisfies `P`. -/
inductive EncodingAll (P : Part → Prop) : List Item → Bytes → Prop
  | nil : EncodingAll P [] []
  | cons {item : Item} {rest : List Item} {bs more : Bytes} : Encoding P item bs →
      EncodingAll P rest more → EncodingAll P (item :: rest) (bs ++ more)

end

/-! ## Rows and payloads -/

section
variable {α : Type} {width : Nat} {Says : Nat → α → Prop} {xs : List α} {bs : Bytes}

theorem Row.length (h : Row width Says xs bs) : bs.length = xs.length * width := by
  induction h with
  | nil => simp
  | cons hg _ _ ih => rw [List.length_append, hg, ih, List.length_cons, Nat.succ_mul, Nat.add_comm]

theorem numbers_append {read : Nat → α} {group : Bytes} (hw : 0 < width)
    (hg : group.length = width) (bs : Bytes) :
    numbers width read (group ++ bs) = read (Bytes.toNat group) :: numbers width read bs := by
  unfold numbers
  rw [List.length_append, hg, Nat.add_div_left _ hw, Bytes.groups, List.take_left' hg,
    List.drop_left' hg, List.map_cons]

theorem numbers_one (read : Nat → α) (bs : Bytes) :
    numbers 1 read bs = bs.map fun b => read b.toNat := by
  induction bs with
  | nil => rfl
  | cons b rest ih =>
    rw [← List.singleton_append, numbers_append Nat.one_pos rfl, ih, Bytes.toNat_cons]
    simp [Bytes.toNat]

/-- Bytes are a row of values exactly when they are whole groups and the values are what is read
from them. -/
theorem row_iff {read : Nat → α} (hw : 0 < width)
    (hs : ∀ n < 256 ^ width, ∀ x, Says n x ↔ read n = x) :
    Row width Says xs bs ↔ bs.length % width = 0 ∧ numbers width read bs = xs := by
  constructor
  · intro h
    refine ⟨by rw [h.length, Nat.mul_mod_left], ?_⟩
    induction h with
    | nil => simp [numbers, Bytes.groups]
    | @cons x xs group bs hg hx _ ih =>
      rw [numbers_append hw hg, ih, (hs _ (hg ▸ Bytes.toNat_lt group) x).mp hx]
  · rintro ⟨hm, rfl⟩
    obtain ⟨count, hc⟩ := Nat.dvd_of_mod_eq_zero hm
    induction count generalizing bs with
    | zero =>
      rw [Nat.mul_zero, List.length_eq_zero_iff] at hc
      subst hc
      simpa [numbers, Bytes.groups] using Row.nil
    | succ count ih =>
      rw [Nat.mul_succ] at hc
      have hg : (bs.take width).length = width := by
        rw [List.length_take]
        omega
      have hd : (bs.drop width).length = width * count := by
        rw [List.length_drop]
        omega
      rw [← List.take_append_drop width bs, numbers_append hw hg]
      refine .cons hg ((hs _ ?_ _).mpr rfl) (ih ?_ hd)
      · have hlt := Bytes.toNat_lt (bs.take width)
        rwa [hg] at hlt
      · rw [hd, Nat.mul_mod_right]

/-- Bytes are a row of values that are known by their numbers exactly when they are whole groups
and the values are what is read from them. -/
theorem row_number_iff (number : α → Nat) (read : Nat → α) (hw : 0 < width)
    (hr : ∀ x, read (number x) = x) (hn : ∀ n < 256 ^ width, number (read n) = n) :
    Row width (fun n x => number x = n) xs bs ↔
      bs.length % width = 0 ∧ numbers width read bs = xs :=
  row_iff hw fun n h _ => ⟨fun hx => hx ▸ hr _, fun hx => hx ▸ hn n h⟩

end

/-- A payload says of an item what is read from it, if it has whole elements. -/
theorem carries_iff {bs : Bytes} {item : Item} (h : item.format ≠ .list) :
    Carries bs item ↔ bs.length % item.format.width = 0 ∧ ofPayload bs item.format = item := by
  have h1 : ∀ n < 256 ^ 1, (UInt8.ofNat n).toNat = n := fun _ hn => UInt8.toNat_ofNat_of_lt hn
  have h2 : ∀ n < 256 ^ 2, (UInt16.ofNat n).toNat = n := fun _ hn => UInt16.toNat_ofNat_of_lt hn
  have h4 : ∀ n < 256 ^ 4, (UInt32.ofNat n).toNat = n := fun _ hn => UInt32.toNat_ofNat_of_lt hn
  have h8 : ∀ n < 256 ^ 8, (UInt64.ofNat n).toNat = n := fun _ hn => UInt64.toNat_ofNat_of_lt hn
  cases item with
  | list items => exact absurd rfl h
  | ascii text => simp [Carries, format, ItemFormat.width, ofPayload, Nat.mod_one, eq_comm]
  | boolean flags =>
    have hs : ∀ n < 256 ^ 1, ∀ x : Bool, (x = true ↔ n ≠ 0) ↔ (n != 0) = x := by
      intro n _ x
      cases x <;> simp
    have hz : ∀ b : UInt8, (b.toNat != 0) = (b != 0) := by
      intro b
      rw [Bool.eq_iff_iff, bne_iff_ne, bne_iff_ne, Ne, Ne, ← UInt8.toNat_inj]
      rfl
    refine (row_iff Nat.one_pos hs).trans ?_
    simp only [numbers_one, hz, ofPayload, format, ItemFormat.width, boolean.injEq]
  | binary bytes =>
    refine (row_number_iff UInt8.toNat UInt8.ofNat (by decide) (by simp) h1).trans ?_
    simp only [numbers_one, UInt8.ofNat_toNat, List.map_id', ofPayload, format, ItemFormat.width,
      binary.injEq]
  | u1 numbers =>
    refine (row_number_iff UInt8.toNat UInt8.ofNat (by decide) (by simp) h1).trans ?_
    simp only [numbers_one, UInt8.ofNat_toNat, List.map_id', ofPayload, format, ItemFormat.width,
      u1.injEq]
  | i1 numbers =>
    refine (row_number_iff (fun x : Int8 => x.toUInt8.toNat) (fun n => (UInt8.ofNat n).toInt8)
      (by decide) (by simp) h1).trans ?_
    simp only [numbers_one, UInt8.ofNat_toNat, ofPayload, format, ItemFormat.width, i1.injEq]
  | i2 numbers =>
    refine (row_number_iff (fun x : Int16 => x.toUInt16.toNat) (fun n => (UInt16.ofNat n).toInt16)
      (by decide) (by simp) h2).trans ?_
    simp only [ofPayload, format, ItemFormat.width, i2.injEq]
  | i4 numbers =>
    refine (row_number_iff (fun x : Int32 => x.toUInt32.toNat) (fun n => (UInt32.ofNat n).toInt32)
      (by decide) (by simp) h4).trans ?_
    simp only [ofPayload, format, ItemFormat.width, i4.injEq]
  | i8 numbers =>
    refine (row_number_iff (fun x : Int64 => x.toUInt64.toNat) (fun n => (UInt64.ofNat n).toInt64)
      (by decide) (by simp) h8).trans ?_
    simp only [ofPayload, format, ItemFormat.width, i8.injEq]
  | u2 numbers =>
    refine (row_number_iff UInt16.toNat UInt16.ofNat (by decide) (by simp) h2).trans ?_
    simp only [ofPayload, format, ItemFormat.width, u2.injEq]
  | u4 numbers =>
    refine (row_number_iff UInt32.toNat UInt32.ofNat (by decide) (by simp) h4).trans ?_
    simp only [ofPayload, format, ItemFormat.width, u4.injEq]
  | u8 numbers =>
    refine (row_number_iff UInt64.toNat UInt64.ofNat (by decide) (by simp) h8).trans ?_
    simp only [ofPayload, format, ItemFormat.width, u8.injEq]
  | f4 numbers =>
    refine (row_number_iff (fun x : Single => x.bits.toNat) (fun n => ⟨UInt32.ofNat n⟩)
      (by decide) (by simp) h4).trans ?_
    simp only [ofPayload, format, ItemFormat.width, f4.injEq]
  | f8 numbers =>
    refine (row_number_iff (fun x : Double => x.bits.toNat) (fun n => ⟨UInt64.ofNat n⟩)
      (by decide) (by simp) h8).trans ?_
    simp only [ofPayload, format, ItemFormat.width, f8.injEq]

/-! ## Headers -/

theorem eq_code_of_ofByte? {b : UInt8} {format : ItemFormat}
    (h : ItemFormat.ofByte? b = some format) :
    b = UInt8.ofNat (format.code.toNat + b.toNat % 4) := by
  have hb : b.toNat = format.code.toNat + b.toNat % 4 := by
    unfold ItemFormat.ofByte? at h
    split at h <;> simp only [Option.some.injEq, reduceCtorEq] at h <;> subst h <;>
      simp only [ItemFormat.code, UInt8.reduceToNat] <;> omega
  rw [← hb, UInt8.ofNat_toNat]

/-- A header is read exactly where the grammar has one. -/
theorem readHeader?_eq_some_iff {b rest : Bytes} {format : ItemFormat} {n : Nat} :
    readHeader? b = some (format, n, rest) ↔
      ∃ length, IsLength length n ∧ b = headerOf format length ++ rest := by
  constructor
  · intro h
    cases b with
    | nil => simp [readHeader?] at h
    | cons first bs =>
      rw [readHeader?] at h
      cases hf : ItemFormat.ofByte? first with
      | none => simp [hf] at h
      | some f =>
        rw [hf] at h
        dsimp only at h
        split at h
        · simp at h
        · next hw =>
          obtain ⟨⟨length, more⟩, hs, he⟩ := Option.map_eq_some_iff.mp h
          simp only [Prod.mk.injEq] at he
          obtain ⟨rfl, rfl, rfl⟩ := he
          obtain ⟨rfl, hl⟩ := Bytes.eq_append_of_split? hs
          refine ⟨length, ⟨by omega, by omega, rfl⟩, ?_⟩
          rw [headerOf, hl, ← eq_code_of_ofByte? hf, List.cons_append]
  · rintro ⟨length, hl, rfl⟩
    obtain ⟨hf, hw⟩ := ofByte?_code format (Nat.lt_succ_of_le hl.le)
    have hp := hl.pos
    rw [headerOf, List.cons_append, readHeader?, hf]
    dsimp only
    rw [hw, if_neg (by omega), Bytes.split?_append, Option.map_some, hl.toNat]

/-! ## What is read is an encoding -/

theorem encodingAll_of_readAll {read : Bytes → Option (Item × Bytes)} {levels : Nat}
    (h : ∀ b item rest, read b = some (item, rest) →
      ∃ bs, b = bs ++ rest ∧ Encoding (fun _ => True) item bs ∧ item.depth ≤ levels)
    {before : List Item} {count : Nat} {b rest : Bytes} {items : List Item}
    (hr : readAll read before count b = some (items, rest)) :
    ∃ new body, items = before.reverse ++ new ∧ new.length = count ∧ b = body ++ rest ∧
      EncodingAll (fun _ => True) new body ∧ depthAll new ≤ levels := by
  induction count generalizing before b with
  | zero =>
    rw [readAll, Option.some.injEq, Prod.mk.injEq] at hr
    obtain ⟨rfl, rfl⟩ := hr
    exact ⟨[], [], (List.append_nil _).symm, rfl, rfl, .nil, Nat.zero_le _⟩
  | succ count ih =>
    rw [readAll] at hr
    split at hr
    · simp at hr
    · next item more hi =>
      obtain ⟨bs, rfl, he, hd⟩ := h b item more hi
      obtain ⟨new, body, rfl, hn, rfl, ha, hds⟩ := ih hr
      refine ⟨item :: new, bs ++ body, ?_, congrArg (· + 1) hn, ?_, .cons he ha,
        Nat.max_le.mpr ⟨hd, hds⟩⟩
      · rw [List.reverse_cons, List.append_assoc, List.singleton_append]
      · rw [List.append_assoc]

theorem format_ofPayload {format : ItemFormat} (h : format ≠ .list) (bs : Bytes) :
    (ofPayload bs format).format = format := by
  cases format with
  | list => exact absurd rfl h
  | _ => rfl

theorem depth_of_flat {item : Item} (h : item.format ≠ .list) : item.depth = 0 := by
  cases item with
  | list items => exact absurd rfl h
  | _ => rfl

theorem encoding_of_read?_flat {levels : Nat} {b more rest : Bytes} {item : Item}
    {format : ItemFormat} {n : Nat} (hf : format ≠ .list)
    (hh : readHeader? b = some (format, n, more)) (h : read? levels b = some (item, rest)) :
    ∃ bs, b = bs ++ rest ∧ Encoding (fun _ => True) item bs ∧ item.depth ≤ levels := by
  obtain ⟨length, hl, rfl⟩ := readHeader?_eq_some_iff.mp hh
  rw [read?_of_flat hf hh] at h
  split at h
  · simp at h
  · next contents last hs =>
    obtain ⟨rfl, rfl⟩ := Bytes.eq_append_of_split? hs
    split at h
    · next hm =>
      simp only [Option.some.injEq, Prod.mk.injEq] at h
      obtain ⟨rfl, rfl⟩ := h
      have hfo := format_ofPayload hf contents
      have hne : (ofPayload contents format).format ≠ .list := by rwa [hfo]
      have hc : Carries contents (ofPayload contents format) := by
        rw [carries_iff hne, hfo]
        exact ⟨hm, rfl⟩
      refine ⟨headerOf format length ++ contents, (List.append_assoc _ _ _).symm, ?_, ?_⟩
      · have he := Encoding.flat (P := fun _ => True) hl hc trivial
        rwa [hfo] at he
      · rw [depth_of_flat hne]
        exact Nat.zero_le _
    · simp at h

/-- What is read is an encoding at the front of the bytes, of lists that nest no deeper than is
allowed. -/
theorem encoding_of_read? {levels : Nat} {b rest : Bytes} {item : Item}
    (h : read? levels b = some (item, rest)) :
    ∃ bs, b = bs ++ rest ∧ Encoding (fun _ => True) item bs ∧ item.depth ≤ levels := by
  induction levels generalizing b rest item with
  | zero =>
    rcases hh : readHeader? b with _ | ⟨format, n, more⟩
    · simp [read?, hh] at h
    · by_cases hf : format = .list
      · subst hf
        simp [read?, hh] at h
      · exact encoding_of_read?_flat hf hh h
  | succ levels ih =>
    rcases hh : readHeader? b with _ | ⟨format, n, more⟩
    · simp [read?, hh] at h
    · by_cases hf : format = .list
      · subst hf
        rw [read?_of_list hh] at h
        obtain ⟨⟨items, last⟩, hr, he⟩ := Option.map_eq_some_iff.mp h
        simp only [Prod.mk.injEq] at he
        obtain ⟨rfl, rfl⟩ := he
        obtain ⟨length, hl, rfl⟩ := readHeader?_eq_some_iff.mp hh
        obtain ⟨new, body, hi, rfl, rfl, ha, hd⟩ := encodingAll_of_readAll (fun _ _ _ => ih) hr
        rw [List.reverse_nil, List.nil_append] at hi
        subst hi
        exact ⟨headerOf .list length ++ body, (List.append_assoc _ _ _).symm, .list hl ha trivial,
          Nat.succ_le_succ hd⟩
      · exact encoding_of_read?_flat hf hh h

/-! ## Encodings are read -/

variable {P : Part → Prop}

theorem readAll_of_encodingAll {read : Bytes → Option (Item × Bytes)} {items : List Item}
    (h : ∀ item ∈ items, ∀ bs rest, Encoding P item bs → read (bs ++ rest) = some (item, rest))
    {body : Bytes} (ha : EncodingAll P items body) (before : List Item) (rest : Bytes) :
    readAll read before items.length (body ++ rest) = some (before.reverse ++ items, rest) := by
  induction items generalizing before body with
  | nil =>
    cases ha
    simp [readAll]
  | cons item others ih =>
    rcases ha with _ | ⟨he, ha⟩
    rw [List.forall_mem_cons] at h
    rw [List.length_cons, readAll, List.append_assoc, h.1 _ _ he]
    dsimp only
    rw [ih h.2 ha, List.reverse_cons, List.append_assoc, List.singleton_append]

/-- An encoding is read from the front of any bytes that begin with it, if its lists nest no deeper
than is allowed. -/
theorem read?_of_encoding {item : Item} {levels : Nat} (hd : item.depth ≤ levels) {bs : Bytes}
    (h : Encoding P item bs) (rest : Bytes) : read? levels (bs ++ rest) = some (item, rest) := by
  induction item using Item.induction generalizing levels bs rest with
  | flat item hf =>
    cases h with
    | list => exact absurd rfl hf
    | @flat _ length payload hl hc =>
      obtain ⟨hm, ho⟩ := (carries_iff hf).mp hc
      rw [List.append_assoc, read?_of_flat hf (readHeader?_eq_some_iff.mpr ⟨length, hl, rfl⟩),
        Bytes.split?_append]
      dsimp only
      rw [if_pos hm, ho]
  | list items ih =>
    cases h with
    | flat _ hc => exact hc.elim
    | @list _ length body hl ha =>
      cases levels with
      | zero => exact absurd hd (Nat.not_succ_le_zero _)
      | succ levels =>
        have hr : ∀ item ∈ items, ∀ bs rest, Encoding P item bs →
            read? levels (bs ++ rest) = some (item, rest) := by
          intro item hi bs rest he
          have hle := Nat.le_trans (depth_le_depthAll items item hi) (Nat.le_of_succ_le_succ hd)
          exact ih item hi hle he rest
        rw [List.append_assoc, read?_of_list (readHeader?_eq_some_iff.mpr ⟨length, hl, rfl⟩),
          readAll_of_encodingAll hr ha, Option.map_some, List.reverse_nil, List.nil_append]

/-! ## The words of the reader -/

/-- What is decoded are the encodings, of lists that nest no deeper than is allowed. -/
theorem decode?_eq_some_iff {b : Bytes} {item : Item} {n : Nat} :
    decode? b = some (item, n) ↔
      n ≤ b.length ∧ Encoding (fun _ => True) item (b.take n) ∧ item.depth ≤ depthLimit := by
  constructor
  · intro h
    obtain ⟨⟨i, rest⟩, hr, he⟩ := Option.map_eq_some_iff.mp h
    obtain ⟨bs, rfl, henc, hd⟩ := encoding_of_read? hr
    simp only [List.length_append, Nat.add_sub_cancel, Prod.mk.injEq] at he
    obtain ⟨rfl, rfl⟩ := he
    rw [List.take_left, List.length_append]
    exact ⟨Nat.le_add_right _ _, henc, hd⟩
  · rintro ⟨hn, henc, hd⟩
    have hr := read?_of_encoding hd henc (b.drop n)
    rw [List.take_append_drop] at hr
    simp only [decode?, hr, Option.map_some, List.length_drop, Nat.sub_sub_self hn]

/-- Nothing behind the encoding is looked at. -/
theorem decode?_of_take_eq {b c : Bytes} {item : Item} {n : Nat}
    (h : decode? b = some (item, n)) (hc : c.take n = b.take n) : decode? c = some (item, n) := by
  obtain ⟨hn, henc, hd⟩ := decode?_eq_some_iff.mp h
  have hl := congrArg List.length hc
  rw [List.length_take_of_le hn, List.length_take] at hl
  exact decode?_eq_some_iff.mpr ⟨by omega, hc ▸ henc, hd⟩

/-- No strict prefix of an encoding begins with an encoding. -/
theorem decode?_take_of_lt {b : Bytes} {item : Item} {n k : Nat}
    (h : decode? b = some (item, n)) (hk : k < n) : decode? (b.take k) = none := by
  rcases hs : decode? (b.take k) with _ | ⟨other, m⟩
  · rfl
  · have hm := (decode?_eq_some_iff.mp hs).1
    rw [List.length_take] at hm
    have ht : b.take m = (b.take k).take m := by rw [List.take_take, Nat.min_eq_left (by omega)]
    have hb := decode?_of_take_eq hs ht
    rw [h, Option.some.injEq, Prod.mk.injEq] at hb
    omega

/-- An item of `n` bytes is decoded exactly from those bytes that begin with an encoding of it of
`n` bytes, if its lists nest no deeper than is allowed; what is behind the encoding is not looked
at, and nothing is decoded when the encoding is cut short. -/
theorem decode?_exactly_encodings (b : Bytes) (item : Item) (n : Nat) :
    (decode? b = some (item, n) ↔
        n ≤ b.length ∧ Encoding (fun _ => True) item (b.take n) ∧ item.depth ≤ depthLimit) ∧
      (decode? b = some (item, n) →
        (∀ c : Bytes, c.take n = b.take n → decode? c = some (item, n)) ∧
          (∀ more, decode? (b ++ more) = some (item, n)) ∧
          ∀ k < n, decode? (b.take k) = none) := by
  refine ⟨decode?_eq_some_iff, fun h => ⟨fun c => decode?_of_take_eq h, fun more => ?_,
    fun k => decode?_take_of_lt h⟩⟩
  have hn := (decode?_eq_some_iff.mp h).1
  exact decode?_of_take_eq h (List.take_append_of_le_length hn)

/-- A list whose length takes two bytes, of a number, a truth value that is not written with one and
a text, and a byte behind it. -/
def looseList : Bytes :=
  [0x02, 0x00, 0x03, 0x69, 0x02, 0xFF, 0xF9, 0x25, 0x01, 0x80, 0x41, 0x02, 0xC2, 0xB0, 0xFF]

/-- The item that is read from `looseList`. -/
def looseItem : Item := .list [.i2 [-7], .boolean [true], .ascii "°"]

theorem decode?_exactly_encodings_looseList :
    decode? looseList = some (looseItem, 14) ∧ decode? (looseList.take 13) = none ∧
      Encoding (fun _ => True) looseItem (looseList.take 14) := by
  have h : decode? looseList = some (looseItem, 14) := rfl
  obtain ⟨hiff, hrest⟩ := decode?_exactly_encodings looseList looseItem 14
  exact ⟨h, (hrest h).2.2 13 (by decide), (hiff.mp h).2.1⟩

end GemLink.Item
