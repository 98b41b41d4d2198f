import GemLink.Proofs.Item.Cursor
import GemLink.Proofs.Item.Grammar

/-!
Reading items one after the other. Where the bytes ahead begin with an encoding, the item is read
and the cursor then stands behind it (`item_eq_some_iff`). A payload that is no whole number of
elements is not decoded, but its header tells how far it reaches, so that it is passed over exactly
(`item_of_ragged`). So each of several segments is read by itself, whatever stands before it and
behind it (`segments_read_one_by_one`).
-/

namespace GemLink

namespace Item

variable {item : Item} {b bs rest : Bytes} {id : UInt32}

/-- Whether bytes are an encoding of an item whose lists nest no deeper than is allowed. -/
def IsWritten (item : Item) (bs : Bytes) : Prop :=
  Encoding (fun _ => True) item bs ∧ item.depth ≤ depthLimit

theorem read?_eq_some_iff :
    read? depthLimit b = some (item, rest) ↔ ∃ bs, b = bs ++ rest ∧ item.IsWritten bs := by
  constructor
  · exact encoding_of_read?
  · rintro ⟨bs, rfl, he, hd⟩
    exact read?_of_encoding hd he rest

theorem isWritten_iff : item.IsWritten bs ↔ read? depthLimit bs = some (item, []) := by
  simp [read?_eq_some_iff]

/-- Whether bytes are the header of a list of `count` items. -/
def IsListHeader (count : Nat) (bs : Bytes) : Prop :=
  ∃ length, IsLength length count ∧ bs = headerOf .list length

/-- Whether bytes are an encoding of an identifier. -/
def IsIdentifier (id : UInt32) (bs : Bytes) : Prop :=
  ∃ item : Item, item.Names id ∧ item.IsWritten bs

theorem identifier?_eq_some_iff : Cursor.identifier? item = some id ↔ item.Names id := by
  constructor
  · intro h
    unfold Cursor.identifier? at h
    split at h
    · cases h
      exact .u4 _
    · cases h
      exact .u2 _
    · cases h
      exact .u1 _
    · cases h
  · rintro (_ | _ | _) <;> rfl

/-- A part of a body that is read by itself, with what the reading gives: an encoding of an item, or
a header that announces a payload which is no whole number of elements, and that payload. -/
inductive IsSegment : Option Item → Bytes → Prop
  | written {item : Item} {bs : Bytes} (h : item.IsWritten bs) : IsSegment (some item) bs
  | ragged {format : ItemFormat} {length payload : Bytes} (hf : format ≠ .list)
      (hl : IsLength length payload.length) (hw : payload.length % format.width ≠ 0) :
      IsSegment none (headerOf format length ++ payload)

end Item

namespace Cursor

/-! ## What a cursor passes -/

/-- Whether bytes are two parts, one behind the other, of which `P` and `Q` hold. -/
def InTurn (P Q : Bytes → Prop) (bs : Bytes) : Prop :=
  ∃ x y, bs = x ++ y ∧ P x ∧ Q y

/-- Whether `P` holds of the bytes from one place in a body to another. -/
def Passes (P : Bytes → Prop) (c d : Cursor) : Prop :=
  d.total = c.total ∧ ∃ bs, c.rest = bs ++ d.rest ∧ P bs

section
variable {P Q : Bytes → Prop} {c d : Cursor}

theorem passes_append {bs : Bytes} (h : P bs) (total : Nat) (rest : Bytes) :
    Passes P ⟨total, bs ++ rest⟩ ⟨total, rest⟩ :=
  ⟨rfl, bs, rfl, h⟩

/-- What is passed in two parts is passed part by part. -/
theorem passes_inTurn_iff :
    Passes (InTurn P Q) c d ↔ ∃ between, Passes P c between ∧ Passes Q between d := by
  constructor
  · rintro ⟨ht, _, hb, x, y, rfl, hx, hy⟩
    rw [List.append_assoc] at hb
    exact ⟨⟨c.total, y ++ d.rest⟩, ⟨rfl, x, hb, hx⟩, ht, y, rfl, hy⟩
  · rintro ⟨between, ⟨ht, x, hb, hx⟩, ht', y, hb', hy⟩
    refine ⟨ht'.trans ht, x ++ y, ?_, x, y, rfl, hx, hy⟩
    rw [hb, hb', List.append_assoc]

theorem passes_exists_iff {α : Type} {P : α → Bytes → Prop} :
    Passes (fun bs => ∃ a, P a bs) c d ↔ ∃ a, Passes (P a) c d := by
  constructor
  · rintro ⟨ht, bs, hb, a, ha⟩
    exact ⟨a, ht, bs, hb, ha⟩
  · rintro ⟨a, ht, bs, hb, ha⟩
    exact ⟨ht, bs, hb, a, ha⟩

variable {item : Item} {id : UInt32} {count : Nat}

theorem item_eq_some_iff : c.item = (some item, d) ↔ Passes item.IsWritten c d := by
  unfold Cursor.item
  constructor
  · intro h
    split at h
    · next i rest hr =>
      cases h
      obtain ⟨bs, hb, hw⟩ := Item.read?_eq_some_iff.mp hr
      exact ⟨rfl, bs, hb, hw⟩
    · cases h
  · rintro ⟨ht, bs, hb, hw⟩
    rw [Item.read?_eq_some_iff.mpr ⟨bs, hb, hw⟩, ← ht]

theorem listHeader?_eq_some_iff :
    c.listHeader? = some (count, d) ↔ Passes (Item.IsListHeader count) c d := by
  unfold listHeader?
  constructor
  · intro h
    split at h
    · next n rest hr =>
      cases h
      obtain ⟨length, hl, hb⟩ := Item.readHeader?_eq_some_iff.mp hr
      exact ⟨rfl, _, hb, length, hl, rfl⟩
    · cases h
  · rintro ⟨ht, bs, hb, length, hl, rfl⟩
    rw [Item.readHeader?_eq_some_iff.mpr ⟨length, hl, hb⟩, ← ht]

theorem identifier_eq_some_iff :
    c.identifier = (some id, d) ↔ Passes (Item.IsIdentifier id) c d := by
  have hread : c.identifier = (some id, d) ↔
      ∃ item : Item, item.Names id ∧ c.item = (some item, d) := by
    unfold identifier
    rcases c.item with ⟨_ | item, e⟩
    · simp
    · simp only [Option.bind_some, Prod.mk.injEq, Option.some.injEq, Item.identifier?_eq_some_iff]
      constructor
      · rintro ⟨hn, rfl⟩
        exact ⟨item, hn, rfl, rfl⟩
      · rintro ⟨_, hn, rfl, rfl⟩
        exact ⟨hn, rfl⟩
  rw [hread]
  simp only [item_eq_some_iff]
  constructor
  · rintro ⟨item, hn, ht, bs, hb, hw⟩
    exact ⟨ht, bs, hb, item, hn, hw⟩
  · rintro ⟨ht, bs, hb, item, hn, hw⟩
    exact ⟨item, hn, ht, bs, hb, hw⟩

end

/-! ## Items one after the other -/

/-- Where a cursor stands after the reading of `n` items. -/
def onward : Nat → Cursor → Cursor
  | 0, c => c
  | n + 1, c => onward n c.item.2

/-- What is read as the item number `n`, counted from zero. -/
def element? (c : Cursor) (n : Nat) : Option Item :=
  (c.onward n).item.1

variable (total : Nat) (rest : Bytes)

/-- A payload that is no whole number of elements is passed over. -/
theorem item_of_ragged {format : ItemFormat} {length payload : Bytes} (hf : format ≠ .list)
    (hl : Item.IsLength length payload.length) (hw : payload.length % format.width ≠ 0) :
    Cursor.item ⟨total, Item.headerOf format length ++ payload ++ rest⟩ =
      (none, ⟨total, rest⟩) := by
  have hh : Item.readHeader? (Item.headerOf format length ++ payload ++ rest) =
      some (format, payload.length, payload ++ rest) :=
    Item.readHeader?_eq_some_iff.mpr ⟨length, hl, List.append_assoc _ _ _⟩
  have hr : Item.read? Item.depthLimit (Item.headerOf format length ++ payload ++ rest) = none := by
    rw [Item.read?_of_flat hf hh, Bytes.split?_append]
    exact if_neg hw
  have hskip : skip (Item.headerOf format length ++ payload ++ rest) = rest := by
    unfold skip
    rw [hh]
    cases format with
    | list => exact absurd rfl hf
    | _ => simp only [Bytes.split?_append]
  unfold Cursor.item
  rw [hr]
  dsimp only
  rw [hskip]

theorem item_of_isSegment {answer : Option Item} {bs : Bytes} (h : Item.IsSegment answer bs) :
    Cursor.item ⟨total, bs ++ rest⟩ = (answer, ⟨total, rest⟩) := by
  cases h with
  | written h =>
    unfold Cursor.item
    rw [Item.read?_eq_some_iff.mpr ⟨bs, rfl, h⟩]
  | ragged hf hl hw => exact item_of_ragged total rest hf hl hw

variable {segments : List (Option Item × Bytes)}

/-- Segments are passed in as many steps as there are. -/
theorem onward_segments (h : ∀ p ∈ segments, Item.IsSegment p.1 p.2) :
    onward segments.length ⟨total, segments.flatMap Prod.snd ++ rest⟩ = ⟨total, rest⟩ := by
  induction segments with
  | nil => rfl
  | cons p others ih =>
    rw [List.forall_mem_cons] at h
    rw [List.length_cons, onward, List.flatMap_cons, List.append_assoc,
      item_of_isSegment total _ h.1]
    exact ih h.2

/-- A row of segments is read segment by segment: each reading gives what its segment alone would
give, and ends where the segment ends. Behind the last nothing is left. -/
theorem segments_read_one_by_one (segments : List (Option Item × Bytes))
    (h : ∀ p ∈ segments, Item.IsSegment p.1 p.2) :
    let c := ofBytes (segments.flatMap Prod.snd)
    (∀ (i : Nat) (hi : i < segments.length), c.element? i = segments[i].1 ∧
        (c.onward (i + 1)).position = ((segments.take (i + 1)).flatMap Prod.snd).length) ∧
      (c.onward segments.length).atEnd = true := by
  intro c
  have hstand : ∀ i ≤ segments.length,
      c.onward i = ⟨c.total, (segments.drop i).flatMap Prod.snd⟩ := by
    intro i hi
    have hbytes : c = ⟨c.total, (segments.take i).flatMap Prod.snd ++
        (segments.drop i).flatMap Prod.snd⟩ := by
      rw [← List.flatMap_append, List.take_append_drop]
      rfl
    have hfront : ∀ p ∈ segments.take i, Item.IsSegment p.1 p.2 :=
      fun p hp => h p (List.mem_of_mem_take hp)
    have ho := onward_segments c.total ((segments.drop i).flatMap Prod.snd) hfront
    rwa [List.length_take_of_le hi, ← hbytes] at ho
  refine ⟨fun i hi => ⟨?_, ?_⟩, ?_⟩
  · have hs := h segments[i] (List.getElem_mem hi)
    rw [element?, hstand i (Nat.le_of_lt hi), List.drop_eq_getElem_cons hi, List.flatMap_cons,
      item_of_isSegment _ _ hs]
  · have hlength : c.total = ((segments.take (i + 1)).flatMap Prod.snd).length +
        ((segments.drop (i + 1)).flatMap Prod.snd).length := by
      rw [← List.length_append, ← List.flatMap_append, List.take_append_drop]
      rfl
    rw [hstand (i + 1) hi, position, hlength, Nat.add_sub_cancel]
  · rw [hstand _ (Nat.le_refl _), List.drop_length]
    rfl

/-- A number whose length takes two bytes, a number with a byte too many, and a list. -/
def raggedSegments : List (Option Item × Bytes) :=
  [(some (.u2 [42]), [0xAA, 0, 2, 0, 42]), (none, [0xA9, 3, 1, 2, 3]),
   (some (.list [.ascii "ok", .boolean [true]]), [1, 2, 0x41, 2, 111, 107, 0x25, 1, 7])]

theorem segments_read_one_by_one_raggedSegments :
    (∀ p ∈ raggedSegments, Item.IsSegment p.1 p.2) ∧
      let c := ofBytes (raggedSegments.flatMap Prod.snd)
      (∀ (i : Nat) (hi : i < raggedSegments.length), c.element? i = raggedSegments[i].1 ∧
          (c.onward (i + 1)).position = ((raggedSegments.take (i + 1)).flatMap Prod.snd).length) ∧
        (c.onward 3).atEnd = true := by
  have hragged : Item.IsSegment none [0xA9, 3, 1, 2, 3] :=
    @Item.IsSegment.ragged .u2 [3] [1, 2, 3] (by decide) ⟨by decide, by decide, by decide⟩
      (by decide)
  have h : ∀ p ∈ raggedSegments, Item.IsSegment p.1 p.2 := by
    unfold raggedSegments
    rw [List.forall_mem_cons, List.forall_mem_cons, List.forall_mem_singleton]
    exact ⟨.written (Item.isWritten_iff.mpr rfl), hragged, .written (Item.isWritten_iff.mpr rfl)⟩
  exact ⟨h, segments_read_one_by_one raggedSegments h⟩

end Cursor

end GemLink
