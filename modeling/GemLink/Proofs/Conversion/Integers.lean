import GemLink.Proofs.Conversion.ReadBack
import GemLink.Proofs.Number.Exact
import GemLink.Proofs.Session.WriteCalls
import GemLink.Proofs.Text.Blank

/-!
Variables of whole numbers. `Value.Denotes` says which whole number a value denotes, and
`Value.Clamps` which real numbers are taken for a limit of 64 bits instead. What is written is one
or the other, and no other value is accepted (`Variable.write?_exact_unless_clamped`).

What is received as text is read as the number of the numeral that it begins with, if that number
has 64 bits with a sign (`Variable.read?_numeral_unless_wide`).
-/

namespace GemLink

/-! ## Whole numbers -/

/-- The least and the greatest number of a format of whole numbers. -/
def VariableFormat.range? : VariableFormat → Option (Int × Int)
  | .int8 => some (Int8.minValue.toInt, Int8.maxValue.toInt)
  | .int16 => some (Int16.minValue.toInt, Int16.maxValue.toInt)
  | .int32 => some (Int32.minValue.toInt, Int32.maxValue.toInt)
  | .int64 => some (Int64.minValue.toInt, Int64.maxValue.toInt)
  | .uint8 => some (0, UInt8.size - 1)
  | .uint16 => some (0, UInt16.size - 1)
  | .uint32 => some (0, UInt32.size - 1)
  | .uint64 => some (0, UInt64.size - 1)
  | .char | .bool | .float | .double => none

/-- Whether a number is in the range of a format. -/
def VariableFormat.Holds (format : VariableFormat) (i : Int) : Prop :=
  ∃ least greatest, format.range? = some (least, greatest) ∧ least ≤ i ∧ i ≤ greatest

theorem VariableFormat.holds_iff {format : VariableFormat} {least greatest i : Int}
    (h : format.range? = some (least, greatest)) : format.Holds i ↔ least ≤ i ∧ i ≤ greatest := by
  unfold Holds
  rw [h]
  simp

theorem toInt_ofInt_of_int64 {i : Int} (hl : Int64.minValue.toInt ≤ i)
    (hg : i ≤ Int64.maxValue.toInt) : (Int64.ofInt i).toInt = i :=
  Int64.toInt_ofInt_of_le hl (Int.lt_of_le_of_lt hg (by decide))

theorem int64?_eq_some_iff {i : Int} {n : Int64} : int64? i = some n ↔ n.toInt = i := by
  unfold int64?
  rw [Option.ite_none_right_eq_some]
  constructor
  · rintro ⟨⟨hl, hg⟩, h⟩
    rw [← Option.some.inj h]
    exact toInt_ofInt_of_int64 hl hg
  · rintro rfl
    exact ⟨⟨n.minValue_le_toInt, n.toInt_le⟩, congrArg some n.ofInt_toInt⟩

theorem uint64?_eq_some_iff {i : Int} {n : UInt64} : uint64? i = some n ↔ (n.toNat : Int) = i := by
  unfold uint64?
  rw [Option.ite_none_right_eq_some]
  constructor
  · rintro ⟨⟨hl, hg⟩, h⟩
    rw [← Option.some.inj h, UInt64.toNat_ofNat_of_lt' hg, Int.toNat_of_nonneg hl]
  · rintro rfl
    refine ⟨⟨Int.natCast_nonneg _, n.toNat_lt⟩, ?_⟩
    rw [Int.toNat_natCast, UInt64.ofNat_toNat]

theorem toInt_int64Near (i : Int) :
    (int64Near i).toInt = max Int64.minValue.toInt (min i Int64.maxValue.toInt) := by
  unfold int64Near
  refine toInt_ofInt_of_int64 ?_ ?_
  · exact Int.le_max_left _ _
  · have hlimits : Int64.minValue.toInt ≤ Int64.maxValue.toInt := by decide
    omega

theorem toNat_uint64Near (i : Int) : (uint64Near i).toNat = min i.toNat (UInt64.size - 1) := by
  unfold uint64Near
  refine UInt64.toNat_ofNat_of_lt' ?_
  have hsize : 0 < UInt64.size := by decide
  omega

namespace VariableFormat.Holds

variable {format : VariableFormat} {i : Int}

theorem range (h : format.Holds i) : format.range?.isSome = true := by
  obtain ⟨least, greatest, hr, -⟩ := h
  rw [hr]
  rfl

theorem least_le (h : format.Holds i) : Int64.minValue.toInt ≤ i := by
  obtain ⟨least, greatest, hr, hl, -⟩ := h
  refine Int.le_trans ?_ hl
  cases format with
  | char | bool | float | double => cases hr
  | _ =>
    cases hr
    decide

/-- Only one format has numbers that need 64 bits without a sign. -/
theorem eq_uint64 (h : format.Holds i) (hi : Int64.maxValue.toInt < i) : format = .uint64 := by
  obtain ⟨least, greatest, hr, -, hg⟩ := h
  have hwide : Int64.maxValue.toInt < greatest := Int.lt_of_lt_of_le hi hg
  cases format with
  | uint64 => rfl
  | char | bool | float | double => cases hr
  | _ =>
    cases hr
    revert hwide
    decide

end VariableFormat.Holds

/-! ## What values denote -/

namespace Value

/-- The whole numbers that values denote. A real number denotes one that it equals, and a text the
number of the numeral that is written in it between white space; to an unsigned format a numeral has
no minus sign. -/
inductive Denotes (unsigned : Bool) : Value → Int → Prop
  | int (n : Int64) : Denotes unsigned (.int n) n.toInt
  | nat (n : UInt64) : Denotes unsigned (.nat n) n.toNat
  | flag (b : Bool) : Denotes unsigned (.flag b) b.toNat
  | real {x : Double} {i : Int} (h : x.rational? = some (i : ℚ)) : Denotes unsigned (.real x) i
  | text {front numeral back : List Char} {i : Int} (hf : ∀ c ∈ front, Text.isBlank c = true)
    (hb : ∀ c ∈ back, Text.isBlank c = true) (hn : Numeral.Denotes numeral i)
    (hs : unsigned = true → numeral.head? ≠ some '-') :
    Denotes unsigned (.text (String.ofList (front ++ numeral ++ back))) i

/-- The real numbers beyond the range of a format of 64 bits, and the limit that is taken for
them. -/
inductive Clamps : Value → VariableFormat → Int → Prop
  | below {x : Double} {i : Int} (h : x.rational? = some (i : ℚ)) (hi : i < Int64.minValue.toInt) :
    Clamps (.real x) .int64 Int64.minValue.toInt
  | above {x : Double} {i : Int} (h : x.rational? = some (i : ℚ)) (hi : Int64.maxValue.toInt < i) :
    Clamps (.real x) .int64 Int64.maxValue.toInt
  | aboveUnsigned {x : Double} {i : Int} (h : x.rational? = some (i : ℚ)) (hi : UInt64.size ≤ i) :
    Clamps (.real x) .uint64 (UInt64.size - 1)

variable {unsigned : Bool} {value : Value} {i : Int} {x : Double} {s : String}

theorem denotes_int_iff {n : Int64} : (Value.int n).Denotes unsigned i ↔ n.toInt = i := by
  constructor
  · intro h
    cases h
    rfl
  · rintro rfl
    exact .int n

theorem denotes_nat_iff {n : UInt64} : (Value.nat n).Denotes unsigned i ↔ (n.toNat : Int) = i := by
  constructor
  · intro h
    cases h
    rfl
  · rintro rfl
    exact .nat n

theorem denotes_flag_iff {b : Bool} : (Value.flag b).Denotes unsigned i ↔ (b.toNat : Int) = i := by
  constructor
  · intro h
    cases h
    rfl
  · rintro rfl
    exact .flag b

theorem denotes_real_iff : (Value.real x).Denotes unsigned i ↔ x.toInt? = some i := by
  rw [Double.toInt?_eq_some_iff]
  constructor
  · intro h
    cases h with
    | real h => exact h
  · exact .real

theorem denotes_text_iff : (Value.text s).Denotes unsigned i ↔
    Numeral.Denotes (Text.trim s.toList) i ∧
      (unsigned = true → (Text.trim s.toList).head? ≠ some '-') := by
  constructor
  · intro h
    cases h with
    | text hf hb hn hs =>
      rw [String.toList_ofList, Text.trim_append hf hb (Text.not_isBlank_of_denotes hn)]
      exact ⟨hn, hs⟩
  · rintro ⟨hn, hs⟩
    obtain ⟨front, back, hf, hb, he⟩ := Text.exists_trim s.toList
    have h := Denotes.text hf hb hn hs
    rwa [← he, String.ofList_toList] at h

/-- A real number is a signed number if it equals one or is beyond all of them. -/
theorem toInt64?_real_iff {n : Int64} : (Value.real x).toInt64? = some n ↔
    x.toInt? = some n.toInt ∨ (Value.real x).Clamps .int64 n.toInt := by
  rw [toInt64?, Option.map_eq_some_iff]
  have hlimits : Int64.minValue.toInt ≤ Int64.maxValue.toInt := by decide
  constructor
  · rintro ⟨i, hi, rfl⟩
    have he := Double.toInt?_eq_some_iff.mp hi
    rw [toInt_int64Near]
    rcases Int.lt_or_le i Int64.minValue.toInt with hl | hl
    · rw [Int.max_eq_left (by omega)]
      exact .inr (.below he hl)
    · rcases Int.lt_or_le Int64.maxValue.toInt i with hg | hg
      · rw [Int.min_eq_right (by omega), Int.max_eq_right hlimits]
        exact .inr (.above he hg)
      · rw [Int.min_eq_left hg, Int.max_eq_right hl]
        exact .inl hi
  · have hleast := n.minValue_le_toInt
    have hgreatest := n.toInt_le
    rintro (h | h)
    · refine ⟨_, h, ?_⟩
      rw [← Int64.toInt_inj, toInt_int64Near]
      omega
    · generalize hn : n.toInt = m at h
      cases h with
      | below he hi | above he hi =>
        refine ⟨_, Double.toInt?_eq_some_iff.mpr he, ?_⟩
        rw [← Int64.toInt_inj, toInt_int64Near, hn]
        omega

theorem toUInt64?_real_iff {n : UInt64} : (Value.real x).toUInt64? = some n ↔
    x.toInt? = some (n.toNat : Int) ∨ (Value.real x).Clamps .uint64 n.toNat := by
  rw [toUInt64?, Option.bind_eq_some_iff]
  have hsize : 0 < UInt64.size := by decide
  constructor
  · rintro ⟨i, hi, hn⟩
    obtain ⟨hpos, hn⟩ := Option.ite_none_right_eq_some.mp hn
    rw [← Option.some.inj hn, toNat_uint64Near]
    rcases Int.lt_or_le i UInt64.size with hg | hg
    · have hnear : ((min i.toNat (UInt64.size - 1) : Nat) : Int) = i := by omega
      rw [hnear]
      exact .inl hi
    · have hnear : ((min i.toNat (UInt64.size - 1) : Nat) : Int) = UInt64.size - 1 := by omega
      rw [hnear]
      exact .inr (.aboveUnsigned (Double.toInt?_eq_some_iff.mp hi) hg)
  · have hlt : n.toNat < UInt64.size := n.toNat_lt
    rintro (h | h)
    · refine ⟨_, h, ?_⟩
      rw [if_pos (Int.natCast_nonneg _), Option.some_inj, ← UInt64.toNat_inj, toNat_uint64Near]
      omega
    · generalize hm : (n.toNat : Int) = m at h
      cases h with
      | aboveUnsigned he hi =>
        refine ⟨_, Double.toInt?_eq_some_iff.mpr he, ?_⟩
        rw [if_pos (by omega), Option.some_inj, ← UInt64.toNat_inj, toNat_uint64Near]
        omega

/-- What a value is as a signed number: the number that it denotes, or the limit that is taken for
it. -/
theorem toInt64?_eq_some_iff {n : Int64} : value.toInt64? = some n ↔
    value.Denotes false n.toInt ∨ value.Clamps .int64 n.toInt := by
  cases value with
  | int m =>
    rw [or_iff_left nofun, denotes_int_iff, Int64.toInt_inj]
    exact Option.some_inj
  | nat m =>
    rw [or_iff_left nofun, denotes_nat_iff, eq_comm (b := n.toInt)]
    exact int64?_eq_some_iff
  | flag b =>
    rw [or_iff_left nofun, denotes_flag_iff, toInt64?, Option.some_inj, ← Int64.toInt_inj]
    cases b <;> rfl
  | text s =>
    rw [or_iff_left nofun, denotes_text_iff, toInt64?, Option.bind_eq_some_iff]
    simp [Numeral.signed?_eq_some_iff, int64?_eq_some_iff]
  | array values =>
    rw [or_iff_left nofun]
    exact ⟨nofun, nofun⟩
  | real x =>
    rw [denotes_real_iff]
    exact toInt64?_real_iff

/-- What a value is as an unsigned number. -/
theorem toUInt64?_eq_some_iff {n : UInt64} : value.toUInt64? = some n ↔
    value.Denotes true n.toNat ∨ value.Clamps .uint64 n.toNat := by
  cases value with
  | int m =>
    rw [or_iff_left nofun, denotes_int_iff, eq_comm (b := (n.toNat : Int))]
    exact uint64?_eq_some_iff
  | nat m =>
    rw [or_iff_left nofun, denotes_nat_iff, Int.natCast_inj, UInt64.toNat_inj]
    exact Option.some_inj
  | flag b =>
    rw [or_iff_left nofun, denotes_flag_iff, toUInt64?, Option.some_inj, ← UInt64.toNat_inj,
      Int.natCast_inj]
    cases b <;> rfl
  | text s =>
    rw [or_iff_left nofun, denotes_text_iff, toUInt64?, Option.bind_eq_some_iff]
    simp [Numeral.unsigned?_eq_some_iff, uint64?_eq_some_iff]
  | array values =>
    rw [or_iff_left nofun]
    exact ⟨nofun, nofun⟩
  | real x =>
    rw [denotes_real_iff]
    exact toUInt64?_real_iff

end Value

/-! ## Written items -/

/-- Whether an item of a format holds one element, and which number it is. -/
inductive Item.HoldsOnly : Item → VariableFormat → Int → Prop
  | int8 (n : Int8) : HoldsOnly (.i1 [n]) .int8 n.toInt
  | int16 (n : Int16) : HoldsOnly (.i2 [n]) .int16 n.toInt
  | int32 (n : Int32) : HoldsOnly (.i4 [n]) .int32 n.toInt
  | int64 (n : Int64) : HoldsOnly (.i8 [n]) .int64 n.toInt
  | uint8 (n : UInt8) : HoldsOnly (.u1 [n]) .uint8 n.toNat
  | uint16 (n : UInt16) : HoldsOnly (.u2 [n]) .uint16 n.toNat
  | uint32 (n : UInt32) : HoldsOnly (.u4 [n]) .uint32 n.toNat
  | uint64 (n : UInt64) : HoldsOnly (.u8 [n]) .uint64 n.toNat

/-- There is one item of a format that holds a number. -/
theorem Item.HoldsOnly.unique {a b : Item} {format : VariableFormat} {i j : Int}
    (ha : a.HoldsOnly format i) (hb : b.HoldsOnly format j) (h : i = j) : a = b := by
  cases ha with
  | int8 n => cases hb with | int8 m => rw [Int8.toInt_inj.mp h]
  | int16 n => cases hb with | int16 m => rw [Int16.toInt_inj.mp h]
  | int32 n => cases hb with | int32 m => rw [Int32.toInt_inj.mp h]
  | int64 n => cases hb with | int64 m => rw [Int64.toInt_inj.mp h]
  | uint8 n => cases hb with | uint8 m => rw [UInt8.toNat_inj.mp (Int.natCast_inj.mp h)]
  | uint16 n => cases hb with | uint16 m => rw [UInt16.toNat_inj.mp (Int.natCast_inj.mp h)]
  | uint32 n => cases hb with | uint32 m => rw [UInt32.toNat_inj.mp (Int.natCast_inj.mp h)]
  | uint64 n => cases hb with | uint64 m => rw [UInt64.toNat_inj.mp (Int.natCast_inj.mp h)]

namespace Variable

variable {v : Variable} {value : Value} {item : Item} {format : VariableFormat}
  {least greatest i : Int}

/-- A value is written as a signed number of fewer than 64 bits if it denotes one; the limits that
real numbers are clamped to are out of range. -/
theorem write?.between_eq_some_iff (hl : Int64.minValue.toInt < least)
    (hg : greatest < Int64.maxValue.toInt) :
    between value least greatest = some i ↔ value.Denotes false i ∧ least ≤ i ∧ i ≤ greatest := by
  constructor
  · intro h
    obtain ⟨hn, hb⟩ := toInt64?_of_between h
    have hi : (Int64.ofInt i).toInt = i := toInt_ofInt_of_int64 (by omega) (by omega)
    rcases Value.toInt64?_eq_some_iff.mp hn with hd | hc
    · rw [hi] at hd
      exact ⟨hd, hb⟩
    · rw [hi] at hc
      cases hc with
      | below _ _ => omega
      | above _ _ => omega
  · rintro ⟨hd, hb⟩
    have hi : (Int64.ofInt i).toInt = i := toInt_ofInt_of_int64 (by omega) (by omega)
    have hn : value.toInt64? = some (Int64.ofInt i) :=
      Value.toInt64?_eq_some_iff.mpr (.inl (by rwa [hi]))
    unfold between
    rw [hn, Option.bind_some, hi, if_pos hb]

theorem write?.below_eq_some_iff {bound n : Nat} (hb : bound < UInt64.size) :
    below value bound = some n ↔ value.Denotes true n ∧ n < bound := by
  constructor
  · intro h
    obtain ⟨hm, hlt⟩ := toUInt64?_of_below h
    have hn : (UInt64.ofNat n).toNat = n := UInt64.toNat_ofNat_of_lt' (by omega)
    rcases Value.toUInt64?_eq_some_iff.mp hm with hd | hc
    · rw [hn] at hd
      exact ⟨hd, hlt⟩
    · rw [hn] at hc
      generalize hi : (n : Int) = i at hc
      cases hc with
      | aboveUnsigned _ _ => omega
  · rintro ⟨hd, hlt⟩
    have hn : (UInt64.ofNat n).toNat = n := UInt64.toNat_ofNat_of_lt' (by omega)
    have hm : value.toUInt64? = some (UInt64.ofNat n) :=
      Value.toUInt64?_eq_some_iff.mpr (.inl (by rwa [hn]))
    unfold below
    rw [hm, Option.bind_some, hn, if_pos hlt]

/-- Formats of fewer than 64 bits take no limit for a number. -/
theorem write?_signed_iff {make : Int → Item} (hs : format.isUnsigned = false)
    (hc : ∀ i, ¬ value.Clamps format i) (hr : format.range? = some (least, greatest))
    (hl : Int64.minValue.toInt < least) (hg : greatest < Int64.maxValue.toInt)
    (hm : ∀ i, least ≤ i → i ≤ greatest → (make i).HoldsOnly format i) :
    (write?.between value least greatest).map make = some item ↔
      ∃ i, (value.Denotes format.isUnsigned i ∧ format.Holds i ∨ value.Clamps format i) ∧
        item.HoldsOnly format i := by
  rw [Option.map_eq_some_iff]
  refine exists_congr fun i => ?_
  rw [write?.between_eq_some_iff hl hg, hs, or_iff_left (hc i), VariableFormat.holds_iff hr]
  refine and_congr_right fun hb => ⟨?_, fun h => (hm i hb.2.1 hb.2.2).unique h rfl⟩
  rintro rfl
  exact hm i hb.2.1 hb.2.2

theorem write?_unsigned_iff {bound : Nat} {make : Nat → Item} (hs : format.isUnsigned = true)
    (hc : ∀ i, ¬ value.Clamps format i) (hr : format.range? = some (0, (bound : Int) - 1))
    (hb : bound < UInt64.size) (hm : ∀ n < bound, (make n).HoldsOnly format n) :
    (write?.below value bound).map make = some item ↔
      ∃ i, (value.Denotes format.isUnsigned i ∧ format.Holds i ∨ value.Clamps format i) ∧
        item.HoldsOnly format i := by
  rw [Option.map_eq_some_iff]
  constructor
  · rintro ⟨n, hn, rfl⟩
    obtain ⟨hd, hlt⟩ := (write?.below_eq_some_iff hb).mp hn
    refine ⟨n, .inl ⟨by rwa [hs], (VariableFormat.holds_iff hr).mpr ?_⟩, hm n hlt⟩
    omega
  · rintro ⟨i, hi, hitem⟩
    obtain ⟨hd, hh⟩ := (or_iff_left (hc i)).mp hi
    obtain ⟨hl, hg⟩ := (VariableFormat.holds_iff hr).mp hh
    obtain ⟨n, rfl⟩ := Int.eq_ofNat_of_zero_le hl
    have hlt : n < bound := by omega
    exact ⟨n, (write?.below_eq_some_iff hb).mpr ⟨by rwa [hs] at hd, hlt⟩,
      (hm n hlt).unique hitem rfl⟩

/-- What is written to a variable of whole numbers: the number that the value denotes, if it is in
the range of the format, or the limit that is taken for it. -/
theorem write?_eq_some_iff (hf : v.format.range?.isSome = true) : v.write? value = some item ↔
    ∃ i, (value.Denotes v.format.isUnsigned i ∧ v.format.Holds i ∨ value.Clamps v.format i) ∧
      item.HoldsOnly v.format i := by
  unfold write?
  generalize v.format = format at hf
  cases format with
  | char | bool | float | double => cases hf
  | int8 =>
    refine write?_signed_iff rfl nofun rfl (by decide) (by decide) fun i hl hg => ?_
    have h := Item.HoldsOnly.int8 (Int8.ofInt i)
    rwa [Int8.toInt_ofInt_of_le hl (Int.lt_of_le_of_lt hg (by decide))] at h
  | int16 =>
    refine write?_signed_iff rfl nofun rfl (by decide) (by decide) fun i hl hg => ?_
    have h := Item.HoldsOnly.int16 (Int16.ofInt i)
    rwa [Int16.toInt_ofInt_of_le hl (Int.lt_of_le_of_lt hg (by decide))] at h
  | int32 =>
    refine write?_signed_iff rfl nofun rfl (by decide) (by decide) fun i hl hg => ?_
    have h := Item.HoldsOnly.int32 (Int32.ofInt i)
    rwa [Int32.toInt_ofInt_of_le hl (Int.lt_of_le_of_lt hg (by decide))] at h
  | uint8 =>
    refine write?_unsigned_iff rfl nofun rfl (by decide) fun n hlt => ?_
    have h := Item.HoldsOnly.uint8 (UInt8.ofNat n)
    rwa [UInt8.toNat_ofNat_of_lt' hlt] at h
  | uint16 =>
    refine write?_unsigned_iff rfl nofun rfl (by decide) fun n hlt => ?_
    have h := Item.HoldsOnly.uint16 (UInt16.ofNat n)
    rwa [UInt16.toNat_ofNat_of_lt' hlt] at h
  | uint32 =>
    refine write?_unsigned_iff rfl nofun rfl (by decide) fun n hlt => ?_
    have h := Item.HoldsOnly.uint32 (UInt32.ofNat n)
    rwa [UInt32.toNat_ofNat_of_lt' hlt] at h
  | int64 =>
    rw [Option.map_eq_some_iff]
    constructor
    · rintro ⟨n, hn, rfl⟩
      refine ⟨n.toInt, (Value.toInt64?_eq_some_iff.mp hn).imp_left fun hd => ⟨hd, ?_⟩, .int64 n⟩
      exact (VariableFormat.holds_iff rfl).mpr ⟨n.minValue_le_toInt, n.toInt_le⟩
    · rintro ⟨i, hi, hitem⟩
      cases hitem with
      | int64 n => exact ⟨n, Value.toInt64?_eq_some_iff.mpr (hi.imp_left And.left), rfl⟩
  | uint64 =>
    rw [Option.map_eq_some_iff]
    constructor
    · rintro ⟨n, hn, rfl⟩
      refine ⟨n.toNat, (Value.toUInt64?_eq_some_iff.mp hn).imp_left fun hd => ⟨hd, ?_⟩, .uint64 n⟩
      have hlt : n.toNat < UInt64.size := n.toNat_lt
      exact (VariableFormat.holds_iff rfl).mpr ⟨Int.natCast_nonneg _, by omega⟩
    · rintro ⟨i, hi, hitem⟩
      cases hitem with
      | uint64 n => exact ⟨n, Value.toUInt64?_eq_some_iff.mpr (hi.imp_left And.left), rfl⟩

/-- A value is written to a variable of whole numbers as the number that it denotes, if that is in
the range of the format. A real number beyond the range of a format of 64 bits is written as the
nearest limit; nothing else is written, and what is not is refused for its value. -/
theorem write?_exact_unless_clamped (hf : v.format.range?.isSome = true) (value : Value) :
    (∀ item, v.write? value = some item ↔
      ∃ i, (value.Denotes v.format.isUnsigned i ∧ v.format.Holds i ∨ value.Clamps v.format i) ∧
        item.HoldsOnly v.format i) ∧
      ∀ (s : Session) (name : String) (id : UInt32) (now : Nat),
        s.catalog.writable.get? name = some v → v.kind = .equipmentConstant →
          v.numericId = some id →
            ((s.write name value now).2 = .error (.invalidWriteValue v.name v.format) ↔
              v.write? value = none) :=
  ⟨fun _ => write?_eq_some_iff hf, fun _ _ _ _ => Session.write_invalid_iff⟩

/-- A constant of 64-bit numbers. -/
def totalVariable : Variable :=
  { name := "total", format := .int64, kind := .equipmentConstant, numericId := some 9,
    access := .write }

/-- The number `2 ^ 63`. -/
def twoPow63 : Double :=
  ⟨0x43e0000000000000⟩

theorem write?_twoPow63 :
    totalVariable.write? (.real twoPow63) = some (.i8 [Int64.maxValue]) := by
  have h : (Value.real twoPow63).toInt64? = some Int64.maxValue := by decide +kernel
  exact congrArg (Option.map fun n => Item.i8 [n]) h

/-- The number `2 ^ 63` is taken for the one before it, but its numeral is refused. -/
theorem write?_exact_unless_clamped_twoPow63 :
    let s := Session.ofCatalog "press" {} { writable := [("total", totalVariable)] }
    let numeral := Value.text "9223372036854775808"
    totalVariable.format.range?.isSome = true ∧
      totalVariable.write? (.real twoPow63) = some (.i8 [Int64.maxValue]) ∧
      (∃ i, ((Value.real twoPow63).Denotes totalVariable.format.isUnsigned i ∧
          totalVariable.format.Holds i ∨ (Value.real twoPow63).Clamps totalVariable.format i) ∧
        Item.HoldsOnly (.i8 [Int64.maxValue]) totalVariable.format i) ∧
      (s.write "total" numeral 600).2 = .error (.invalidWriteValue "total" .int64) := by
  intro s numeral
  have hf : totalVariable.format.range?.isSome = true := by decide
  have hnone : totalVariable.write? numeral = none := by
    have h : numeral.toInt64? = none := by decide +kernel
    exact congrArg (Option.map fun n => Item.i8 [n]) h
  have hclamped := (write?_exact_unless_clamped hf (.real twoPow63)).1 (.i8 [Int64.maxValue])
  have hrefused := (write?_exact_unless_clamped hf numeral).2 s "total" 9 600 rfl rfl rfl
  exact ⟨hf, write?_twoPow63, hclamped.mp write?_twoPow63, hrefused.mpr hnone⟩

/-- Whether a value is written to a variable of whole numbers if and only if it denotes one in the
range of the format, and then as that number. -/
def WritesExactly (v : Variable) (value : Value) : Prop :=
  ∀ item, v.write? value = some item ↔
    ∃ i, value.Denotes v.format.isUnsigned i ∧ v.format.Holds i ∧ item.HoldsOnly v.format i

/-- The greatest number of 64 bits is written for one that is greater. -/
theorem not_writesExactly_twoPow63 : ¬ totalVariable.WritesExactly (.real twoPow63) := by
  intro h
  obtain ⟨i, hd, hh, -⟩ := (h _).mp write?_twoPow63
  have hi : twoPow63.toInt? = some i := Value.denotes_real_iff.mp hd
  have htwo : twoPow63.toInt? = some 9223372036854775808 := by decide +kernel
  rw [← Option.some.inj (htwo.symm.trans hi)] at hh
  have hrange := (VariableFormat.holds_iff rfl).mp hh
  revert hrange
  decide

end Variable

/-! ## Received texts -/

/-- The numeral at the front of a text is read, behind white space, if no digit follows it and its
number has 64 bits with a sign. -/
theorem Datum.leadingInt?_append {blank numeral rest : List Char} {i : Int}
    (hb : ∀ c ∈ blank, Text.isBlank c = true) (hn : Numeral.Denotes numeral i)
    (hr : ∀ c ∈ rest.head?, c.isDigit = false) :
    leadingInt? (String.ofList (blank ++ numeral ++ rest)) = int64? i := by
  have hhead : ∀ c ∈ (numeral ++ rest).head?, Text.isBlank c = false := by
    obtain ⟨c, more, hc⟩ := List.exists_cons_of_ne_nil hn.ne_nil
    intro d hd
    rw [hc] at hd
    cases hd
    exact Text.not_isBlank_of_denotes hn c (by rw [hc]; exact List.mem_cons_self)
  unfold leadingInt?
  rw [String.toList_ofList, List.append_assoc, Text.trimFront_append hb hhead,
    Numeral.leading?_append hn hr, Option.bind_some, Numeral.signed?_eq_some_iff.mpr hn,
    Option.bind_some]

namespace Variable

/-- A text is read by a variable of whole numbers as the number at its front. -/
theorem read?_text {v : Variable} (hf : v.format.range?.isSome = true) (s : String) :
    v.read? (.text s) =
      (Datum.leadingInt? s).map fun n => if v.array then .array [.int n] else .int n := by
  have hscalar : Datum.scalar? v.format (.text s) = (Datum.leadingInt? s).map .int := by
    generalize v.format = format at hf
    cases format with
    | char | bool | float | double => cases hf
    | _ => rfl
  unfold read?
  dsimp only
  rw [hscalar]
  cases v.array with
  | false => rfl
  | true => exact Option.map_map _ _ _

variable {v : Variable} {n : Int} {blank numeral rest : List Char}

/-- A text that begins with a numeral is read by a variable of whole numbers as the number of the
numeral, if that has 64 bits with a sign; white space in front of the numeral does not matter, nor
what follows it, if that is no digit. Greater numbers there are in the range of one format only, and
they are not read. -/
theorem read?_numeral_unless_wide (hh : v.format.Holds n)
    (hb : ∀ c ∈ blank, Text.isBlank c = true) (hn : Numeral.Denotes numeral n)
    (hr : ∀ c ∈ rest.head?, c.isDigit = false) :
    let text := String.ofList (blank ++ numeral ++ rest)
    (n ≤ Int64.maxValue.toInt → ∃ m : Int64, m.toInt = n ∧
      v.read? (.text text) = some (if v.array then .array [.int m] else .int m)) ∧
    (Int64.maxValue.toInt < n → v.format = .uint64 ∧ v.read? (.text text) = none) := by
  intro text
  have hread := read?_text hh.range text
  rw [Datum.leadingInt?_append hb hn hr] at hread
  rw [hread]
  constructor
  · intro hg
    have hi : int64? n = some (Int64.ofInt n) := if_pos ⟨hh.least_le, hg⟩
    rw [hi]
    exact ⟨Int64.ofInt n, int64?_eq_some_iff.mp hi, rfl⟩
  · intro hg
    have hi : int64? n = none := if_neg fun h => Int.not_lt.mpr h.2 hg
    rw [hi]
    exact ⟨hh.eq_uint64 hg, rfl⟩

/-- A status variable of unsigned 64-bit numbers. -/
def countVariable : Variable :=
  { name := "count", format := .uint64, kind := .statusVariable, numericId := some 1 }

/-- The greatest number of 64 bits without a sign. -/
def greatestCount : Int :=
  18446744073709551615

theorem read?_numeral_unless_wide_greatestCount :
    let numeral := Numeral.ofInt greatestCount
    countVariable.format.Holds greatestCount ∧ Numeral.Denotes numeral greatestCount ∧
      countVariable.read? (.text (String.ofList (['\t'] ++ numeral ++ [';']))) = none ∧
      ∃ m : Int64, m.toInt = 42 ∧
        countVariable.read? (.text (String.ofList (['\t'] ++ ['+', '4', '2'] ++ [';']))) =
          some (.int m) := by
  intro numeral
  have hb : ∀ c ∈ ['\t'], Text.isBlank c = true := List.forall_mem_singleton.mpr (by decide)
  have hr : ∀ c ∈ [';'].head?, c.isDigit = false := by simp
  have hwide : countVariable.format.Holds greatestCount :=
    (VariableFormat.holds_iff rfl).mpr (by decide)
  have hnarrow : countVariable.format.Holds 42 := (VariableFormat.holds_iff rfl).mpr (by decide)
  have hn : Numeral.Denotes numeral greatestCount := Numeral.denotes_ofInt greatestCount
  have hplus : Numeral.Denotes ['+', '4', '2'] 42 := .plus ⟨by decide, by simp, by decide⟩
  exact ⟨hwide, hn, ((read?_numeral_unless_wide hwide hb hn hr).2 (by decide)).2,
    (read?_numeral_unless_wide hnarrow hb hplus hr).1 (by decide)⟩

/-- Whether a text is read as a whole number. -/
def ReadsAs (v : Variable) (s : String) (n : Int) : Prop :=
  ∃ c : Value, v.read? (.text s) = some (if v.array then .array [c] else c) ∧
    ((∃ m : Int64, c = .int m ∧ m.toInt = n) ∨ ∃ m : UInt64, c = .nat m ∧ m.toNat = n)

/-- The numeral of the greatest number of a format is not read. -/
theorem not_readsAs_greatestCount :
    countVariable.format.Holds greatestCount ∧
      ¬ countVariable.ReadsAs (String.ofList (Numeral.ofInt greatestCount)) greatestCount := by
  refine ⟨(VariableFormat.holds_iff rfl).mpr (by decide), ?_⟩
  rintro ⟨c, hc, -⟩
  have hnone : Datum.leadingInt? (String.ofList ([] ++ Numeral.ofInt greatestCount ++ [])) = none :=
    Datum.leadingInt?_append (List.forall_mem_nil _) (Numeral.denotes_ofInt greatestCount) nofun
  rw [List.nil_append, List.append_nil] at hnone
  rw [read?_text rfl, hnone] at hc
  cases hc

end Variable

end GemLink
