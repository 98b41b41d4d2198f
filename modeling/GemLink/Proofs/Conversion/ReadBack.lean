import GemLink.Conversion
import GemLink.Message.Basic
import GemLink.Proofs.Item.Cursor
import GemLink.Proofs.Text.Front

/-!
What is written is what is read back. `Value.Canonical` says, format by format, what a value is to a
variable; it speaks of the value alone, not of items or bytes. The item that carries a value is
decoded from its bytes, wherever they stand, and what it stands for is read as the canonical value
(`Variable.read?_write`). In the message that writes an equipment constant the item stands behind
the identifier, and a reader that goes through the message finds both.
-/

namespace GemLink

/-! ## Canonical values -/

/-- Whether the format holds signed whole numbers only. -/
def VariableFormat.isSigned : VariableFormat → Bool
  | .int8 | .int16 | .int32 | .int64 => true
  | _ => false

theorem VariableFormat.isUnsigned_of_isSigned {format : VariableFormat}
    (h : format.isSigned = true) : format.isUnsigned = false := by
  revert h
  cases format <;> decide

/-- What a value is to a variable of a given format. -/
inductive Value.Canonical (value : Value) : VariableFormat → Value → Prop
  /-- A text is as much of the value's text as one item holds. -/
  | char {s : String} (h : Utf8.IsFront writtenTextSize value.display s) :
    Canonical value .char (.text s)
  | bool {b : Bool} (h : value.toBool? = some b) : Canonical value .bool (.flag b)
  | signed {format : VariableFormat} {n : Int64} (hf : format.isSigned = true)
    (h : value.toInt64? = some n) : Canonical value format (.int n)
  | unsigned {format : VariableFormat} {n : UInt64} (hf : format.isUnsigned = true)
    (h : value.toUInt64? = some n) : Canonical value format (.nat n)
  /-- A number of single precision is the nearest one. -/
  | float {x : Double} (h : value.toDouble? = some x) :
    Canonical value .float (.real x.toSingle.toDouble)
  | double {x : Double} (h : value.toDouble? = some x) : Canonical value .double (.real x)

/-- A value is one thing only to a variable. -/
theorem Value.Canonical.unique {value c d : Value} {format : VariableFormat}
    (hc : value.Canonical format c) (hd : value.Canonical format d) : c = d := by
  cases hc with
  | char h =>
    cases hd with
    | char h' => rw [h.unique h']
    | signed hf | unsigned hf => cases hf
  | bool h =>
    cases hd with
    | bool h' => rw [Option.some.inj (h.symm.trans h')]
    | signed hf | unsigned hf => cases hf
  | float h =>
    cases hd with
    | float h' => rw [Option.some.inj (h.symm.trans h')]
    | signed hf | unsigned hf => cases hf
  | double h =>
    cases hd with
    | double h' => rw [Option.some.inj (h.symm.trans h')]
    | signed hf | unsigned hf => cases hf
  | signed hf h =>
    cases hd with
    | signed _ h' => rw [Option.some.inj (h.symm.trans h')]
    | unsigned hu =>
      rw [VariableFormat.isUnsigned_of_isSigned hf] at hu
      cases hu
    | char | bool | float | double => cases hf
  | unsigned hf h =>
    cases hd with
    | unsigned _ h' => rw [Option.some.inj (h.symm.trans h')]
    | signed hs =>
      rw [VariableFormat.isUnsigned_of_isSigned hs] at hf
      cases hf
    | char | bool | float | double => cases hf

namespace Variable

variable {v : Variable} {value : Value} {item : Item}

/-! ## Items that are written -/

theorem write?.toInt64?_of_between {least greatest i : Int}
    (h : between value least greatest = some i) :
    value.toInt64? = some (Int64.ofInt i) ∧ least ≤ i ∧ i ≤ greatest := by
  obtain ⟨n, hn, hi⟩ := Option.bind_eq_some_iff.mp h
  obtain ⟨hb, hi⟩ := Option.ite_none_right_eq_some.mp hi
  rw [← Option.some.inj hi, Int64.ofInt_toInt]
  exact ⟨hn, hb⟩

theorem write?.toUInt64?_of_below {bound n : Nat} (h : below value bound = some n) :
    value.toUInt64? = some (UInt64.ofNat n) ∧ n < bound := by
  obtain ⟨m, hm, hn⟩ := Option.bind_eq_some_iff.mp h
  obtain ⟨hb, hn⟩ := Option.ite_none_right_eq_some.mp hn
  rw [← Option.some.inj hn, UInt64.ofNat_toNat]
  exact ⟨hm, hb⟩

/-- A signed number that was written as a narrower one is read as it was, if the narrower numbers
are. -/
theorem scalar?_of_between {format : VariableFormat} {least greatest : Int} {narrow : Int → Item}
    (hf : format.isSigned = true)
    (hread : ∀ i, least ≤ i → i ≤ greatest →
      (narrow i).datum.scalar? format = some (.int (Int64.ofInt i)))
    (h : (write?.between value least greatest).map narrow = some item) :
    ∃ c, value.Canonical format c ∧ item.datum.scalar? format = some c := by
  obtain ⟨i, hi, rfl⟩ := Option.map_eq_some_iff.mp h
  obtain ⟨hn, hl, hg⟩ := write?.toInt64?_of_between hi
  exact ⟨_, .signed hf hn, hread i hl hg⟩

/-- An unsigned number that was written as a narrower one is read as it was, if the narrower numbers
are. -/
theorem scalar?_of_below {format : VariableFormat} {bound : Nat} {narrow : Nat → Item}
    (hf : format.isUnsigned = true)
    (hread : ∀ n < bound, (narrow n).datum.scalar? format = some (.nat (UInt64.ofNat n)))
    (h : (write?.below value bound).map narrow = some item) :
    ∃ c, value.Canonical format c ∧ item.datum.scalar? format = some c := by
  obtain ⟨n, hn, rfl⟩ := Option.map_eq_some_iff.mp h
  obtain ⟨hm, hb⟩ := write?.toUInt64?_of_below hn
  exact ⟨_, .unsigned hf hm, hread n hb⟩

/-- What a written item stands for is read in its format as the canonical value. -/
theorem scalar?_of_write? (h : v.write? value = some item) :
    ∃ c, value.Canonical v.format c ∧ item.datum.scalar? v.format = some c := by
  unfold write? at h
  generalize v.format = format at h
  cases format with
  | char =>
    cases h
    exact ⟨_, .char (Utf8.isFront_front _ _), rfl⟩
  | bool =>
    obtain ⟨b, hb, rfl⟩ := Option.map_eq_some_iff.mp h
    exact ⟨_, .bool hb, rfl⟩
  | float =>
    obtain ⟨x, hx, rfl⟩ := Option.map_eq_some_iff.mp h
    exact ⟨_, .float hx, rfl⟩
  | double =>
    obtain ⟨x, hx, rfl⟩ := Option.map_eq_some_iff.mp h
    exact ⟨_, .double hx, rfl⟩
  | int64 =>
    obtain ⟨n, hn, rfl⟩ := Option.map_eq_some_iff.mp h
    exact ⟨_, .signed rfl hn, rfl⟩
  | uint64 =>
    obtain ⟨n, hn, rfl⟩ := Option.map_eq_some_iff.mp h
    exact ⟨_, .unsigned rfl hn, rfl⟩
  | int8 =>
    refine scalar?_of_between rfl (fun i hl hg => ?_) h
    rw [← Int8.toInt64_ofInt hl hg]
    rfl
  | int16 =>
    refine scalar?_of_between rfl (fun i hl hg => ?_) h
    rw [← Int16.toInt64_ofInt hl hg]
    rfl
  | int32 =>
    refine scalar?_of_between rfl (fun i hl hg => ?_) h
    rw [← Int32.toInt64_ofInt hl hg]
    rfl
  | uint8 =>
    refine scalar?_of_below rfl (fun n hb => ?_) h
    rw [← UInt8.toUInt64_ofNat' hb]
    rfl
  | uint16 =>
    refine scalar?_of_below rfl (fun n hb => ?_) h
    rw [← UInt16.toUInt64_ofNat' hb]
    rfl
  | uint32 =>
    refine scalar?_of_below rfl (fun n hb => ?_) h
    rw [← UInt32.toUInt64_ofNat' hb]
    rfl

/-- A written item holds one element, or a text that one length byte counts. -/
theorem flat_of_write? (h : v.write? value = some item) : item.depth = 0 ∧ item.Fits := by
  unfold write? at h
  generalize v.format = format at h
  cases format with
  | char =>
    cases h
    have hf := (Utf8.isFront_front writtenTextSize value.display).fits
    rw [Utf8.length_encode] at hf
    exact ⟨rfl, Nat.lt_of_le_of_lt hf (by decide)⟩
  | _ =>
    obtain ⟨x, -, rfl⟩ := Option.map_eq_some_iff.mp h
    refine ⟨rfl, Nat.lt_of_le_of_lt (m := 8) ?_ (by decide)⟩
    exact Nat.le_of_ble_eq_true rfl

/-- A single datum becomes the value of a variable, or the only one in its row. -/
theorem read?_of_scalar? {d : Datum} {c : Value} (h : d.scalar? v.format = some c) :
    v.read? d = some (if v.array then .array [c] else c) := by
  cases d with
  | array data => cases h
  | _ =>
    unfold read?
    dsimp only
    rw [h]
    split <;> rfl

end Variable

/-! ## Messages that write -/

theorem decode?_readable {item : Item} (h : item.Readable) (rest : Bytes) :
    Item.decode? (item.encode ++ rest) = some (item, item.encode.length) := by
  obtain ⟨hd, hl⟩ := Item.decode?_encode item rest h.1 h.2
  rw [hd, hl]

/-- The identifier of an equipment constant is one, of two bytes or of four. -/
theorem names_constantIdItem (id : UInt32) : (constantIdItem id).Names id := by
  unfold constantIdItem
  split
  · next h =>
    have hid : id.toUInt16.toUInt32 = id := by
      rw [← UInt32.toNat_inj, UInt16.toNat_toUInt32, UInt32.toNat_toUInt16]
      exact Nat.mod_eq_of_lt h
    have hn := Item.Names.u2 id.toUInt16
    rwa [hid] at hn
  · exact .u4 id

theorem depth_constantIdItem (id : UInt32) : (constantIdItem id).depth = 0 := by
  unfold constantIdItem
  split <;> rfl

theorem readable_constantWrite (id : UInt32) {item : Item} (hd : item.depth = 0)
    (hf : item.Fits) : (Body.constantWrite (constantIdItem id) item).Readable := by
  have hl : 1 < Item.lengthLimit ∧ 2 < Item.lengthLimit := by decide
  refine ⟨?_, hl.1, ⟨hl.2, (names_constantIdItem id).readable.2, hf, trivial⟩, trivial⟩
  show max (max (constantIdItem id).depth (max item.depth 0) + 1) 0 + 1 ≤ Item.depthLimit
  rw [hd, depth_constantIdItem]
  decide

/-- A reader goes from the front of the message over two list headers and the identifier to the
item, and then it has read everything. -/
theorem read_constantWrite (id : UInt32) {item : Item} (h : item.Readable) :
    ∃ outer inner behind last : Cursor,
      (Cursor.ofBytes (Body.constantWrite (constantIdItem id) item).encode).listHeader? =
          some (1, outer) ∧
        outer.listHeader? = some (2, inner) ∧ inner.identifier = (some id, behind) ∧
        behind.item = (some item, last) ∧ last.atEnd = true := by
  have hl : 1 < Item.lengthLimit ∧ 2 < Item.lengthLimit := by decide
  generalize ht : (Body.constantWrite (constantIdItem id) item).encode.length = total
  have h₁ := Cursor.listHeader?_encode total []
    (show [Item.list [constantIdItem id, item]].length < Item.lengthLimit from hl.1)
  have h₂ := Cursor.listHeader?_encode total []
    (show [constantIdItem id, item].length < Item.lengthLimit from hl.2)
  have h₃ := Cursor.identifier_encode total item.encode (names_constantIdItem id)
  have h₄ := Cursor.item_encode total [] h
  simp only [Item.encodeAll, List.append_nil] at h₁ h₂ h₄
  unfold Cursor.ofBytes
  rw [ht]
  exact ⟨_, _, _, _, h₁, h₂, h₃, h₄, rfl⟩

/-- A value that is written to a variable is read back. Its item is decoded from its bytes, whatever
follows them, and is read by the same variable as the one canonical value, in a row of one if and
only if the variable holds rows. The message that writes it holds the identifier of the variable, as
every reader of identifiers finds it, and then the item. -/
theorem Variable.read?_write {v : Variable} {value : Value} {item : Item}
    (h : v.write? value = some item) (id : UInt32) (rest : Bytes) :
    Item.decode? (item.encode ++ rest) = some (item, item.encode.length) ∧
      (∃ c, value.Canonical v.format c ∧ (∀ d, value.Canonical v.format d → d = c) ∧
        v.read? item.datum = some (if v.array then .array [c] else c)) ∧
      (let body := (Body.constantWrite (constantIdItem id) item).encode
      Item.decode? body = some (.list [.list [constantIdItem id, item]], body.length) ∧
        ∃ outer inner behind last : Cursor,
          (Cursor.ofBytes body).listHeader? = some (1, outer) ∧
            outer.listHeader? = some (2, inner) ∧ inner.identifier = (some id, behind) ∧
            behind.item = (some item, last) ∧ last.atEnd = true) := by
  obtain ⟨hd, hf⟩ := v.flat_of_write? h
  have hb := readable_constantWrite id hd hf
  obtain ⟨c, hc, hs⟩ := scalar?_of_write? h
  have hr : item.Readable := ⟨by rw [hd]; exact Nat.zero_le _, hf⟩
  have hu : ∀ d, value.Canonical v.format d → d = c := fun d hd => hd.unique hc
  refine ⟨decode?_readable hr rest, ⟨c, hc, hu, read?_of_scalar? hs⟩, ?_, read_constantWrite id hr⟩
  · have hw := decode?_readable hb []
    rwa [List.append_nil] at hw

/-- A text of sixty-four characters of four bytes each. -/
def wideText : Value :=
  .text (String.ofList (List.replicate 64 '😀'))

/-- A constant whose values are rows of texts. -/
def labelVariable : Variable :=
  { name := "label", format := .char, access := .write, array := true }

/-- The characters that fit 255 bytes: the last three bytes hold no whole character. -/
def cutText : String :=
  String.ofList (List.replicate 63 '😀')

theorem front_wideText :
    Utf8.front writtenTextSize (List.replicate 64 '😀') = List.replicate 63 '😀' := by
  decide

theorem isFront_cutText : Utf8.IsFront writtenTextSize wideText.display cutText := by
  have h := Utf8.isFront_front writtenTextSize wideText.display
  unfold wideText Value.display at h
  rwa [String.toList_ofList, front_wideText] at h

theorem write?_label : labelVariable.write? wideText = some (.ascii cutText) := by
  have h := Utf8.isFront_front writtenTextSize wideText.display
  exact congrArg (fun s => some (Item.ascii s)) (h.unique isFront_cutText)

theorem read?_write_label :
    labelVariable.write? wideText = some (.ascii cutText) ∧
      labelVariable.read? (Item.datum (.ascii cutText)) = some (.array [.text cutText]) ∧
      ∃ outer inner behind last : Cursor,
        (Cursor.ofBytes
            (Body.constantWrite (constantIdItem 70000) (.ascii cutText)).encode).listHeader? =
            some (1, outer) ∧
          outer.listHeader? = some (2, inner) ∧ inner.identifier = (some 70000, behind) ∧
          behind.item = (some (.ascii cutText), last) ∧ last.atEnd = true := by
  obtain ⟨-, ⟨c, -, hu, hr⟩, -, hc⟩ := Variable.read?_write write?_label 70000 []
  have ht : .text cutText = c := hu _ (.char isFront_cutText)
  refine ⟨write?_label, ?_, hc⟩
  rw [hr, ← ht]
  rfl

end GemLink
