import GemLink.Proofs.Item.Grammar

/-!
The encoding that an item is written with among all those that are read as it. It is the one whose
lengths take no more bytes than they must and whose truth values are zero or one; every other one is
at least as long (`decode?_normalises`). Texts are the exception that the statement has to name:
what is not UTF-8 is read with replacement characters and lost. That a part of an encoding is found
at one place only follows from the reader (`Encoding.and`).
-/

namespace GemLink.Item

/-- If the part is a text then its payload is UTF-8. -/
def Part.IsText (part : Part) : Prop :=
  part.format = .ascii → ∃ text, part.payload = Utf8.encode text

/-- The length has no more bytes than it needs, and truth values are zero or one. -/
structure Part.IsNormal (part : Part) : Prop where
  width : ∀ width ≥ 1, Bytes.toNat part.length < 256 ^ width → part.length.length ≤ width
  flags : part.format = .boolean → ∀ b ∈ part.payload, b = 0 ∨ b = 1

variable {P Q R : Part → Prop}

/-! ## Encodings taken apart -/

theorem Encoding.flat_inv {item : Item} {bs : Bytes} (hf : item.format ≠ .list)
    (h : Encoding P item bs) :
    ∃ length payload, bs = headerOf item.format length ++ payload ∧
      IsLength length payload.length ∧ Carries payload item ∧ P ⟨item.format, length, payload⟩ := by
  cases h with
  | flat hl hc hp => exact ⟨_, _, rfl, hl, hc, hp⟩
  | list => exact absurd rfl hf

theorem Encoding.list_inv {items : List Item} {bs : Bytes} (h : Encoding P (.list items) bs) :
    ∃ length body, bs = headerOf .list length ++ body ∧ IsLength length items.length ∧
      EncodingAll P items body ∧ P ⟨.list, length, []⟩ := by
  cases h with
  | flat _ hc => exact hc.elim
  | list hl ha hp => exact ⟨_, _, rfl, hl, ha, hp⟩

theorem EncodingAll.cons_inv {item : Item} {rest : List Item} {bs : Bytes}
    (h : EncodingAll P (item :: rest) bs) :
    ∃ front more, bs = front ++ more ∧ Encoding P item front ∧ EncodingAll P rest more := by
  cases h with
  | cons he ha => exact ⟨_, _, rfl, he, ha⟩

/-- What follows an encoding of an item is settled by the bytes. -/
theorem Encoding.append_inj {item : Item} {bs cs more rest : Bytes} (h : Encoding P item bs)
    (hc : Encoding Q item cs) (he : bs ++ more = cs ++ rest) : bs = cs ∧ more = rest := by
  have hb := read?_of_encoding (Nat.le_refl item.depth) h more
  rw [he, read?_of_encoding (Nat.le_refl _) hc, Option.some.injEq, Prod.mk.injEq] at hb
  obtain ⟨-, rfl⟩ := hb
  exact ⟨List.append_cancel_right he, rfl⟩

theorem headerOf_append_inj {format : ItemFormat} {first second bs cs : Bytes} {m n : Nat}
    (hf : IsLength first m) (hs : IsLength second n)
    (he : headerOf format first ++ bs = headerOf format second ++ cs) :
    first = second ∧ bs = cs := by
  rw [headerOf, headerOf, List.cons_append, List.cons_append, List.cons.injEq] at he
  have hw := congrArg (·.toNat % 4) he.1
  simp only [(ofByte?_code format (Nat.lt_succ_of_le hf.le)).2,
    (ofByte?_code format (Nat.lt_succ_of_le hs.le)).2] at hw
  exact List.append_inj he.2 hw

theorem EncodingAll.and {items : List Item}
    (hi : ∀ item ∈ items, ∀ bs, Encoding P item bs → Encoding Q item bs → Encoding R item bs)
    {bs : Bytes} (h : EncodingAll P items bs) (hq : EncodingAll Q items bs) :
    EncodingAll R items bs := by
  induction items generalizing bs with
  | nil =>
    cases h
    exact .nil
  | cons item rest ih =>
    obtain ⟨front, more, rfl, hf, hm⟩ := h.cons_inv
    obtain ⟨first, others, he, hs, ho⟩ := hq.cons_inv
    obtain ⟨rfl, rfl⟩ := hf.append_inj hs he
    rw [List.forall_mem_cons] at hi
    exact .cons (hi.1 _ hf hs) (ih hi.2 hm ho)

/-- The parts of an encoding are settled by the bytes: what two derivations say of them holds of
the same parts. -/
theorem Encoding.and (hr : ∀ part, P part → Q part → R part) {item : Item} {bs : Bytes}
    (h : Encoding P item bs) (hq : Encoding Q item bs) : Encoding R item bs := by
  induction item using Item.induction generalizing bs with
  | flat item hf =>
    obtain ⟨length, payload, rfl, hl, hc, hp⟩ := h.flat_inv hf
    obtain ⟨other, contents, he, ho, -, hq⟩ := hq.flat_inv hf
    obtain ⟨rfl, rfl⟩ := headerOf_append_inj hl ho he
    exact .flat hl hc (hr _ hp hq)
  | list items ih =>
    obtain ⟨length, body, rfl, hl, ha, hp⟩ := h.list_inv
    obtain ⟨other, contents, he, ho, hs, hq⟩ := hq.list_inv
    obtain ⟨rfl, rfl⟩ := headerOf_append_inj hl ho he
    exact .list hl (ha.and (fun item hi _ => ih item hi) hs) (hr _ hp hq)

/-! ## Lengths -/

theorem lengthWidth_le_of_lt {n width : Nat} (hw : 1 ≤ width) (h : n < 256 ^ width) :
    lengthWidth n ≤ width := by
  have hl := lengthWidth_lt n
  unfold lengthWidth at hl ⊢
  match width, hw with
  | 1, _ => exact Nat.le_of_eq (if_pos h)
  | 2, _ =>
    rw [if_pos (show n < 0x10000 from h)]
    split <;> decide
  | _ + 3, _ => omega

theorem IsLength.lt_pow {length : Bytes} {n : Nat} (h : IsLength length n) :
    n < 256 ^ length.length :=
  h.toNat ▸ Bytes.toNat_lt length

theorem IsLength.lengthWidth_le {length : Bytes} {n : Nat} (h : IsLength length n) :
    lengthWidth n ≤ length.length :=
  lengthWidth_le_of_lt h.pos h.lt_pow

theorem IsLength.lt_lengthLimit {length : Bytes} {n : Nat} (h : IsLength length n) :
    n < lengthLimit :=
  Nat.lt_of_lt_of_le h.lt_pow (Nat.pow_le_pow_right (by decide) h.le)

/-- Length bytes of minimal width are those that are written. -/
theorem IsLength.eq_ofNat {length : Bytes} {n : Nat} (h : IsLength length n)
    (hm : ∀ width ≥ 1, n < 256 ^ width → length.length ≤ width) :
    length = Bytes.ofNat (lengthWidth n) n := by
  have hle := hm _ (lengthWidth_pos n) (lt_pow_lengthWidth h.lt_lengthLimit)
  have hw : length.length = lengthWidth n := Nat.le_antisymm hle h.lengthWidth_le
  rw [← hw, ← h.toNat, Bytes.ofNat_toNat]

theorem isLength_ofNat {n : Nat} (h : n < lengthLimit) :
    IsLength (Bytes.ofNat (lengthWidth n) n) n where
  pos := by
    rw [Bytes.length_ofNat]
    exact lengthWidth_pos n
  le := by
    rw [Bytes.length_ofNat]
    exact Nat.le_of_lt_succ (lengthWidth_lt n)
  toNat := Bytes.toNat_ofNat (lt_pow_lengthWidth h)

theorem header_eq (format : ItemFormat) (n : Nat) :
    header format n = headerOf format (Bytes.ofNat (lengthWidth n) n) := by
  rw [header, headerOf, Bytes.length_ofNat]

/-! ## Payloads -/

/-- Values that are known by their numbers are written as the row that they are read from. -/
theorem Row.flatMap_eq {α : Type} {width : Nat} {number : α → Nat} {xs : List α} {bs : Bytes}
    (h : Row width (fun n x => number x = n) xs bs) :
    (xs.flatMap fun x => Bytes.ofNat width (number x)) = bs := by
  induction h with
  | nil => rfl
  | cons hg hx _ ih => rw [List.flatMap_cons, ih, hx, ← hg, Bytes.ofNat_toNat]

theorem Row.map_eq {α : Type} {f : α → UInt8} {xs : List α} {bs : Bytes}
    (h : Row 1 (fun n x => (f x).toNat = n) xs bs) : xs.map f = bs := by
  have ho : ∀ b : UInt8, Bytes.ofNat 1 b.toNat = [b] := by simp [Bytes.ofNat]
  rw [← h.flatMap_eq, List.map_eq_flatMap]
  simp only [ho]

/-- The payload that an item is written with is the one it is read from, if that is UTF-8 in a text
and has zeros and ones in truth values. -/
theorem Carries.payload_eq {item : Item} {bs : Bytes} (h : Carries bs item)
    (ht : item.format = .ascii → ∃ text, bs = Utf8.encode text)
    (hb : item.format = .boolean → ∀ b ∈ bs, b = 0 ∨ b = 1) : item.payload = bs := by
  cases item with
  | list items => exact h.elim
  | ascii text =>
    obtain ⟨original, rfl⟩ := ht rfl
    rw [payload, show text = _ from h, Utf8.decodeLossy_encode]
  | boolean flags =>
    obtain ⟨-, hf⟩ := (carries_iff (by simp [format])).mp h
    obtain rfl := boolean.inj hf
    rw [payload, List.map_map]
    conv => rhs; rw [← List.map_id bs]
    apply List.map_congr_left
    intro b hm
    rcases hb rfl b hm with rfl | rfl <;> rfl
  | binary bytes => exact (List.map_id' _).symm.trans (Row.map_eq h)
  | u1 numbers => exact (List.map_id' _).symm.trans (Row.map_eq h)
  | i1 numbers => exact Row.map_eq h
  | i2 numbers => exact Row.flatMap_eq h
  | i4 numbers => exact Row.flatMap_eq h
  | i8 numbers => exact Row.flatMap_eq h
  | u2 numbers => exact Row.flatMap_eq h
  | u4 numbers => exact Row.flatMap_eq h
  | u8 numbers => exact Row.flatMap_eq h
  | f4 numbers => exact Row.flatMap_eq h
  | f8 numbers => exact Row.flatMap_eq h

/-- The length that an item announces is that of the payload it is read from, if that is UTF-8 in a
text. -/
theorem Carries.lengthField_eq {item : Item} {bs : Bytes} (h : Carries bs item)
    (ht : item.format = .ascii → ∃ text, bs = Utf8.encode text) :
    item.lengthField = bs.length := by
  cases item with
  | list items => exact h.elim
  | ascii text =>
    obtain ⟨original, rfl⟩ := ht rfl
    rw [lengthField, show text = _ from h, Utf8.decodeLossy_encode, Utf8.length_encode]
  | boolean flags => exact (Nat.mul_one _).symm.trans (Row.length h).symm
  | binary bytes => exact (Nat.mul_one _).symm.trans (Row.length h).symm
  | u1 numbers => exact (Nat.mul_one _).symm.trans (Row.length h).symm
  | i1 numbers => exact (Nat.mul_one _).symm.trans (Row.length h).symm
  | _ => exact (Row.length h).symm

/-! ## What is written -/

theorem payload_flags {item : Item} (h : item.format = .boolean) :
    ∀ b ∈ item.payload, b = 0 ∨ b = 1 := by
  cases item with
  | boolean flags =>
    rw [payload, List.forall_mem_map]
    intro flag _
    cases flag <;> decide
  | _ => cases h

theorem isNormal_ofNat {format : ItemFormat} {n : Nat} {payload : Bytes} (hn : n < lengthLimit)
    (hb : format = .boolean → ∀ b ∈ payload, b = 0 ∨ b = 1) :
    Part.IsNormal ⟨format, Bytes.ofNat (lengthWidth n) n, payload⟩ where
  width width hw hlt := by
    rw [(isLength_ofNat hn).toNat] at hlt
    rw [Bytes.length_ofNat]
    exact lengthWidth_le_of_lt hw hlt
  flags := hb

theorem encodingAll_encodeAll {items : List Item}
    (h : ∀ item ∈ items, Encoding P item item.encode) : EncodingAll P items (encodeAll items) := by
  induction items with
  | nil => exact .nil
  | cons item rest ih =>
    rw [List.forall_mem_cons] at h
    exact .cons h.1 (ih h.2)

/-- What an item is written with is a normal encoding. -/
theorem encoding_encode {item : Item} (h : item.Fits) :
    Encoding Part.IsNormal item item.encode := by
  induction item using Item.induction with
  | flat item hf =>
    obtain ⟨hp, hw⟩ := length_payload item hf
    have hl := isLength_ofNat h.lengthField_lt
    rw [← hp] at hw
    have hc : Carries item.payload item := (carries_iff hf).mpr ⟨hw, ofPayload_payload item hf⟩
    rw [encode_of_flat hf, header_eq]
    exact .flat (hp ▸ hl) hc (isNormal_ofNat h.lengthField_lt payload_flags)
  | list items ih =>
    have hi : ∀ item ∈ items, Encoding Part.IsNormal item item.encode :=
      fun item hi => ih item hi (fits_of_fitsAll h.2 item hi)
    rw [encode, header_eq]
    exact .list (isLength_ofNat h.1) (encodingAll_encodeAll hi) (isNormal_ofNat h.1 (by simp))

theorem encodeAll_eq {items : List Item}
    (hi : ∀ item ∈ items, ∀ bs, Encoding P item bs → item.encode = bs) {bs : Bytes}
    (h : EncodingAll P items bs) : encodeAll items = bs := by
  induction items generalizing bs with
  | nil =>
    cases h
    rfl
  | cons item rest ih =>
    obtain ⟨front, more, rfl, hf, hm⟩ := h.cons_inv
    rw [List.forall_mem_cons] at hi
    rw [encodeAll, hi.1 _ hf, ih hi.2 hm]

/-- A normal encoding in which texts are UTF-8 is what its item is written with. -/
theorem encode_eq {item : Item} {bs : Bytes}
    (h : Encoding (fun part => part.IsText ∧ part.IsNormal) item bs) : item.encode = bs := by
  induction item using Item.induction generalizing bs with
  | flat item hf =>
    obtain ⟨length, payload, rfl, hl, hc, ht, hn⟩ := h.flat_inv hf
    have hw := hl.eq_ofNat (by simpa only [hl.toNat] using hn.width)
    rw [encode_of_flat hf, hc.payload_eq ht hn.flags, hc.lengthField_eq ht, header_eq, ← hw]
  | list items ih =>
    obtain ⟨length, body, rfl, hl, ha, -, hn⟩ := h.list_inv
    have hw := hl.eq_ofNat (by simpa only [hl.toNat] using hn.width)
    rw [encode, encodeAll_eq (fun item hi _ => ih item hi) ha, header_eq, ← hw]

/-! ## Sizes -/

theorem fits_of_flat {item : Item} (hf : item.format ≠ .list) (h : item.lengthField < lengthLimit) :
    item.Fits := by
  cases item with
  | list items => exact absurd rfl hf
  | _ => exact h

theorem encodedSizeAll_le {items : List Item}
    (hi : ∀ item ∈ items, ∀ bs, Encoding P item bs → item.Fits ∧ item.encodedSize ≤ bs.length)
    {bs : Bytes} (h : EncodingAll P items bs) :
    FitsAll items ∧ encodedSizeAll items ≤ bs.length := by
  induction items generalizing bs with
  | nil => exact ⟨trivial, Nat.zero_le _⟩
  | cons item rest ih =>
    obtain ⟨front, more, rfl, hf, hm⟩ := h.cons_inv
    rw [List.forall_mem_cons] at hi
    obtain ⟨hif, his⟩ := hi.1 _ hf
    obtain ⟨hrf, hrs⟩ := ih hi.2 hm
    rw [encodedSizeAll, List.length_append]
    exact ⟨⟨hif, hrf⟩, Nat.add_le_add his hrs⟩

/-- An item can be written if it is read from an encoding in which texts are UTF-8, and takes no
more bytes then. -/
theorem encodedSize_le {item : Item} {bs : Bytes} (h : Encoding Part.IsText item bs) :
    item.Fits ∧ item.encodedSize ≤ bs.length := by
  induction item using Item.induction generalizing bs with
  | flat item hf =>
    obtain ⟨length, payload, rfl, hl, hc, ht⟩ := h.flat_inv hf
    have hle := hl.lengthWidth_le
    have hf' := hc.lengthField_eq ht
    rw [← hf'] at hl hle
    rw [encodedSize_of_flat hf, headerOf, List.length_append, List.length_cons]
    exact ⟨fits_of_flat hf hl.lt_lengthLimit, by omega⟩
  | list items ih =>
    obtain ⟨length, body, rfl, hl, ha, -⟩ := h.list_inv
    obtain ⟨hfa, hs⟩ := encodedSizeAll_le (fun item hi _ => ih item hi) ha
    have hle := hl.lengthWidth_le
    rw [encodedSize, headerOf, List.length_append, List.length_cons]
    exact ⟨⟨hl.lt_lengthLimit, hfa⟩, by omega⟩

/-- Writing what was decoded takes no more bytes than were read and is decoded as the same item; it
gives the bytes that were read exactly when these have no length that is wider than it must be and
no truth value but zero and one. -/
theorem decode?_normalises {b : Bytes} {item : Item} {n : Nat} (h : decode? b = some (item, n))
    (ht : Encoding Part.IsText item (b.take n)) :
    item.encodedSize ≤ n ∧ decode? item.encode = some (item, item.encodedSize) ∧
      (item.encode = b.take n ↔ Encoding Part.IsNormal item (b.take n)) := by
  obtain ⟨hn, -, hd⟩ := decode?_eq_some_iff.mp h
  obtain ⟨hf, hs⟩ := encodedSize_le ht
  rw [List.length_take_of_le hn] at hs
  have hr := (decode?_encode item [] hd hf).1
  rw [List.append_nil] at hr
  refine ⟨hs, hr, fun he => ?_, fun he => ?_⟩
  · rw [← he]
    exact encoding_encode hf
  · exact encode_eq (ht.and (fun _ => And.intro) he)

/-- The parts of `looseList`, of which one is a text. -/
theorem isText_looseList : Encoding Part.IsText looseItem (looseList.take 14) := by
  have number := @Encoding.flat Part.IsText (.i2 [-7]) [0x02] [0xFF, 0xF9]
    ⟨by decide, by decide, rfl⟩ ((carries_iff (by nofun)).mpr ⟨rfl, rfl⟩) nofun
  have flag := @Encoding.flat Part.IsText (.boolean [true]) [0x01] [0x80]
    ⟨by decide, by decide, rfl⟩ ((carries_iff (by nofun)).mpr ⟨rfl, rfl⟩) nofun
  have text := @Encoding.flat Part.IsText (.ascii "°") [0x02] [0xC2, 0xB0]
    ⟨by decide, by decide, rfl⟩ ((carries_iff (by nofun)).mpr ⟨rfl, rfl⟩) fun _ => ⟨"°", rfl⟩
  exact @Encoding.list Part.IsText _ [0x00, 0x03] _ ⟨by decide, by decide, rfl⟩
    (.cons number (.cons flag (.cons text .nil))) nofun

theorem decode?_normalises_looseList :
    looseItem.encodedSize = 13 ∧ decode? looseItem.encode = some (looseItem, 13) ∧
      ¬ Encoding Part.IsNormal looseItem (looseList.take 14) := by
  have h : decode? looseList = some (looseItem, 14) := rfl
  obtain ⟨-, hd, hn⟩ := decode?_normalises h isText_looseList
  exact ⟨rfl, hd, fun he => absurd (hn.mpr he) (by decide)⟩

end GemLink.Item
