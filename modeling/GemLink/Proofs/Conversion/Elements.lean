import Mathlib.Data.List.Forall2
import GemLink.Proofs.Conversion.Integers
import GemLink.Proofs.Number.Decimal

/-!
Items are read element by element. What an item stands for depends on how many elements it has: one
alone stands for itself, and no row is made of it. A variable does not notice (`Variable.read?_datum`):
one that holds rows takes all elements, and any other takes the first. `Text.Offers` says from which
texts a number is read, and `Item.Withholds` why an item gives a variable no value
(`Variable.read?_element_by_element`).
-/

namespace GemLink

/-! ## Rows of results -/

section
variable {α β : Type} {f : α → Option β}

theorem mapM_eq_some_iff {xs : List α} {ys : List β} :
    xs.mapM f = some ys ↔ List.Forall₂ (fun x y => f x = some y) xs ys := by
  induction xs generalizing ys with
  | nil => simp [eq_comm]
  | cons x xs ih =>
    rw [List.mapM_cons, List.forall₂_cons_left_iff]
    simp only [Option.bind_eq_bind, Option.bind_eq_some_iff, Option.pure_def, Option.some.injEq, ih]
    constructor
    · rintro ⟨y, hy, rest, hrest, rfl⟩
      exact ⟨y, rest, hy, hrest, rfl⟩
    · rintro ⟨y, rest, hy, hrest, rfl⟩
      exact ⟨y, hy, rest, hrest, rfl⟩

theorem mapM_eq_none_iff {xs : List α} : xs.mapM f = none ↔ ∃ x ∈ xs, f x = none := by
  induction xs with
  | nil => simp
  | cons x xs ih =>
    rw [List.mapM_cons, List.exists_mem_cons_iff, ← ih]
    cases f x with
    | none => simp
    | some y => cases xs.mapM f <;> simp

end

/-! ## Numbers that texts offer -/

/-- Whether the values of a format are numbers. -/
def VariableFormat.isNumeric : VariableFormat → Bool
  | .char | .bool => false
  | _ => true

/-- Whether a text offers a number to a format: behind white space it begins with a decimal, for a
format that holds fractions, and for any other with a numeral that no digit follows and whose number
has 64 bits with a sign. -/
inductive Text.Offers (s : String) : VariableFormat → Prop
  | real {format : VariableFormat} {blank decimal rest : List Char} (hf : format.isFloat = true)
    (hs : s.toList = blank ++ decimal ++ rest) (hb : ∀ c ∈ blank, Text.isBlank c = true)
    (hd : Decimal.IsWritten decimal) : Offers s format
  | whole {format : VariableFormat} {blank numeral rest : List Char} {i : Int}
    (hf : format.isFloat = false) (hs : s.toList = blank ++ numeral ++ rest)
    (hb : ∀ c ∈ blank, Text.isBlank c = true) (hn : Numeral.Denotes numeral i)
    (hr : ∀ c ∈ rest.head?, c.isDigit = false) (hl : Int64.minValue.toInt ≤ i)
    (hg : i ≤ Int64.maxValue.toInt) : Offers s format

namespace Datum

variable {s : String} {format : VariableFormat}

theorem isSome_leadingInt?_iff (hf : format.isFloat = false) :
    (leadingInt? s).isSome = true ↔ Text.Offers s format := by
  constructor
  · intro h
    obtain ⟨n, hn⟩ := Option.isSome_iff_exists.mp h
    obtain ⟨i, hi, hn⟩ := Option.bind_eq_some_iff.mp hn
    obtain ⟨numeral, hnumeral, hi⟩ := Option.bind_eq_some_iff.mp hi
    obtain ⟨blank, hb, hs⟩ := Text.exists_trimFront s.toList
    obtain ⟨rest, hrest, hr⟩ := Numeral.exists_of_leading? hnumeral
    rw [hrest, ← List.append_assoc] at hs
    rw [← int64?_eq_some_iff.mp hn] at hi
    exact .whole hf hs hb (Numeral.signed?_eq_some_iff.mp hi) hr n.minValue_le_toInt n.toInt_le
  · intro h
    cases h with
    | real hfloat => rw [hf] at hfloat; cases hfloat
    | whole _ hs hb hn hr hl hg =>
      have hread := leadingInt?_append hb hn hr
      rw [← hs, String.ofList_toList] at hread
      rw [hread, int64?, if_pos ⟨hl, hg⟩]
      rfl

theorem isDecimalChar_of_isDigit {c : Char} (h : c.isDigit = true) : isDecimalChar c = true := by
  simp [isDecimalChar, h]

theorem isDecimalChar_of_denotes {numeral : List Char} {i : Int} (h : Numeral.Denotes numeral i) :
    ∀ c ∈ numeral, isDecimalChar c = true := by
  cases h with
  | plain h => exact fun c hc => isDecimalChar_of_isDigit (h.2.1 c hc)
  | plus h | minus h =>
    rw [List.forall_mem_cons]
    exact ⟨by decide, fun c hc => isDecimalChar_of_isDigit (h.2.1 c hc)⟩

/-- Decimals consist of the characters that are looked for. -/
theorem isDecimalChar_of_isWritten {decimal : List Char} (h : Decimal.IsWritten decimal) :
    ∀ c ∈ decimal, isDecimalChar c = true := by
  have hmantissa : ∀ {ds : List Char}, Decimal.IsMantissa ds → ∀ c ∈ ds, isDecimalChar c = true := by
    intro ds hm
    cases hm with
    | whole _ hd => exact fun c hc => isDecimalChar_of_isDigit (hd c hc)
    | point _ hd he =>
      rw [List.forall_mem_append, List.forall_mem_cons]
      exact ⟨fun c hc => isDecimalChar_of_isDigit (hd c hc), by decide,
        fun c hc => isDecimalChar_of_isDigit (he c hc)⟩
  have hexponent : ∀ {es : List Char}, Decimal.IsExponent es → ∀ c ∈ es, isDecimalChar c = true := by
    intro es he
    cases he with
    | none => exact List.forall_mem_nil _
    | power hc hn =>
      rw [List.forall_mem_cons]
      exact ⟨by rcases hc with rfl | rfl <;> decide, isDecimalChar_of_denotes hn⟩
  cases h with
  | plain hm he => exact List.forall_mem_append.mpr ⟨hmantissa hm, hexponent he⟩
  | signed hc hm he =>
    rw [List.forall_mem_cons]
    exact ⟨by rcases hc with rfl | rfl <;> decide,
      List.forall_mem_append.mpr ⟨hmantissa hm, hexponent he⟩⟩

theorem cases_of_isDecimalChar {c : Char} (h : isDecimalChar c = true) :
    c.isDigit = true ∨ c ∈ ['+', '-', '.', 'e', 'E'] := by
  simpa [isDecimalChar, or_assoc] using h

/-- None of them is white space, and none belongs to a word. -/
theorem plain_of_isDecimalChar {c : Char} (h : isDecimalChar c = true) :
    Text.isBlank c = false ∧ c.toLower ≠ 'n' := by
  rcases cases_of_isDecimalChar h with hd | hm
  · refine ⟨Text.not_isBlank_of_isDigit hd, ?_⟩
    have hc : 48 ≤ c.toNat ∧ c.toNat ≤ 57 := by
      simpa [Char.isDigit, UInt32.le_iff_toNat_le] using hd
    have hall : ∀ n < 58, 48 ≤ n → (Char.ofNat n).toLower ≠ 'n' := by decide
    have hn := hall c.toNat (by omega) hc.1
    rwa [Char.ofNat_toNat] at hn
  · simp only [List.mem_cons, List.not_mem_nil, or_false] at hm
    rcases hm with rfl | rfl | rfl | rfl | rfl <;> decide

theorem isSome_leadingReal?_iff (hf : format.isFloat = true) :
    (leadingReal? s).isSome = true ↔ Text.Offers s format := by
  unfold leadingReal?
  dsimp only
  rw [List.findSome?_isSome_iff]
  constructor
  · rintro ⟨n, -, h⟩
    obtain ⟨blank, hb, hs⟩ := Text.exists_trimFront s.toList
    obtain ⟨row, rest, hrow, hchars, hrest⟩ := Text.exists_row isDecimalChar (Text.trimFront s.toList)
    rw [hrow, Text.takeWhile_append hchars hrest] at h
    have hw := (Double.isSome_ofText?_iff fun c hc =>
      (plain_of_isDecimalChar (hchars c (List.mem_of_mem_take hc))).2).mp h
    have hfront : s.toList = blank ++ row.take (n + 1) ++ (row.drop (n + 1) ++ rest) := by
      rw [List.append_assoc, ← List.append_assoc (row.take _), List.take_append_drop, ← hrow]
      exact hs
    exact .real hf hfront hb hw
  · intro h
    cases h with
    | whole hwhole => rw [hf] at hwhole; cases hwhole
    | @real blank decimal rest _ hs hb hd =>
      have hchars := isDecimalChar_of_isWritten hd
      have hread := (Double.isSome_ofText?_iff fun c hc =>
        (plain_of_isDecimalChar (hchars c hc)).2).mpr hd
      obtain ⟨c, more, rfl⟩ := List.exists_cons_of_ne_nil hd.ne_nil
      have hfront : Text.trimFront s.toList = c :: more ++ rest := by
        rw [hs, List.append_assoc]
        refine Text.trimFront_append hb fun d hd => ?_
        cases hd
        exact (plain_of_isDecimalChar (hchars _ List.mem_cons_self)).1
      rw [hfront, List.takeWhile_append_of_pos hchars]
      refine ⟨more.length, ?_, ?_⟩
      · rw [List.mem_reverse, List.mem_range, List.length_append, List.length_cons]
        omega
      · rwa [List.take_left' List.length_cons]

/-! ## Values of a format -/

/-- Whether a datum is a row. -/
def isArray : Datum → Bool
  | .array _ => true
  | _ => false

theorem scalar?_eq_none_iff {d : Datum} :
    d.scalar? format = none ↔
      d.isArray = true ∨ ∃ s, d = .text s ∧ format.isNumeric = true ∧ ¬ Text.Offers s format := by
  cases d with
  | array data => simp [scalar?, isArray]
  | text s =>
    have hint (hf : format.isFloat = false) : leadingInt? s = none ↔ ¬ Text.Offers s format := by
      rw [← isSome_leadingInt?_iff hf, Bool.not_eq_true, Option.isSome_eq_false_iff,
        Option.isNone_iff_eq_none]
    have hreal (hf : format.isFloat = true) : leadingReal? s = none ↔ ¬ Text.Offers s format := by
      rw [← isSome_leadingReal?_iff hf, Bool.not_eq_true, Option.isSome_eq_false_iff,
        Option.isNone_iff_eq_none]
    cases format with
    | char | bool => simp [scalar?, isArray, VariableFormat.isNumeric]
    | float | double => simpa [scalar?, isArray, VariableFormat.isNumeric] using hreal rfl
    | _ => simpa [scalar?, isArray, VariableFormat.isNumeric] using hint rfl
  | _ => cases format <;> simp [scalar?, isArray]

end Datum

namespace Value

/-- Whether a value is a row. -/
def isArray : Value → Bool
  | .array _ => true
  | _ => false

/-- The values that a value consists of: those of a row, and any other alone. -/
def singles : Value → List Value
  | .array values => values
  | value => [value]

/-- The kinds of values that formats have. -/
inductive Suits : Value → VariableFormat → Prop
  | text (s : String) : Suits (.text s) .char
  | flag (b : Bool) : Suits (.flag b) .bool
  | int {format : VariableFormat} (n : Int64) (hf : format.isNumeric = true) : Suits (.int n) format
  | nat {format : VariableFormat} (n : UInt64) (hf : format.isNumeric = true) : Suits (.nat n) format
  | real {format : VariableFormat} (x : Double) (hf : format.isNumeric = true) :
    Suits (.real x) format

theorem Suits.singles {c : Value} {format : VariableFormat} (h : c.Suits format) :
    c.singles = [c] := by
  cases h <;> rfl

theorem Suits.isArray {c : Value} {format : VariableFormat} (h : c.Suits format) :
    c.isArray = false := by
  cases h <;> rfl

end Value

theorem Datum.suits_of_scalar? {d : Datum} {format : VariableFormat} {c : Value}
    (h : d.scalar? format = some c) : c.Suits format := by
  cases d with
  | array data => cases h
  | text s =>
    cases format with
    | char =>
      cases h
      exact .text s
    | bool =>
      cases h
      exact .flag _
    | float | double =>
      obtain ⟨x, -, rfl⟩ := Option.map_eq_some_iff.mp h
      exact .real x rfl
    | _ =>
      obtain ⟨n, -, rfl⟩ := Option.map_eq_some_iff.mp h
      exact .int n rfl
  | flag b | int n | nat n | real x =>
    cases format with
    | char =>
      cases h
      exact .text _
    | bool =>
      cases h
      exact .flag _
    | _ =>
      cases h
      constructor
      rfl

/-! ## Elements -/

namespace Item

/-- The elements of an item, as plain data; a text is one. -/
def elements : Item → List Datum
  | .list items => items.map datum
  | .ascii text => [.text text]
  | .binary bytes => bytes.map fun b => .nat b.toUInt64
  | .boolean flags => flags.map .flag
  | .i1 numbers => numbers.map fun n => .int n.toInt64
  | .i2 numbers => numbers.map fun n => .int n.toInt64
  | .i4 numbers => numbers.map fun n => .int n.toInt64
  | .i8 numbers => numbers.map .int
  | .u1 numbers => numbers.map fun n => .nat n.toUInt64
  | .u2 numbers => numbers.map fun n => .nat n.toUInt64
  | .u4 numbers => numbers.map fun n => .nat n.toUInt64
  | .u8 numbers => numbers.map .nat
  | .f4 numbers => numbers.map fun x => .real x.toDouble
  | .f8 numbers => numbers.map .real

theorem dataOf_eq_map (items : List Item) : dataOf items = items.map datum := by
  induction items with
  | nil => rfl
  | cons item items ih => rw [dataOf, ih, List.map_cons]

variable {item : Item}

/-- The elements of an item that is no list are numbers, truth values and texts. -/
theorem isArray_of_mem_elements (h : item.format ≠ .list) :
    ∀ d ∈ item.elements, d.isArray = false := by
  intro d hd
  cases item with
  | list items => exact absurd rfl h
  | ascii text =>
    rw [elements, List.mem_singleton] at hd
    rw [hd]
    rfl
  | _ =>
    obtain ⟨x, -, rfl⟩ := List.mem_map.mp hd
    rfl

theorem datum_of_list (h : item.format = .list) : item.datum = .array item.elements := by
  cases item with
  | list items => rw [datum, elements, dataOf_eq_map]
  | _ => cases h

theorem datum_of_flat (h : item.format ≠ .list) : item.datum = .collapse item.elements := by
  cases item with
  | list items => exact absurd rfl h
  | ascii text => rfl
  | _ => rw [datum, elements]

/-- The elements of an item that is neither a list nor a text have values in all formats. -/
theorem exists_scalars (item : Item) (hl : item.format ≠ .list) (ht : item.format ≠ .ascii)
    (format : VariableFormat) : ∃ cs, item.elements.mapM (Datum.scalar? format) = some cs := by
  rw [← Option.isSome_iff_exists, ← Option.ne_none_iff_isSome, Ne, mapM_eq_none_iff]
  rintro ⟨d, hd, h⟩
  rcases Datum.scalar?_eq_none_iff.mp h with hrow | ⟨s, rfl, -⟩
  · rw [isArray_of_mem_elements hl d hd] at hrow
    cases hrow
  · cases item with
    | list items => exact hl rfl
    | ascii text => exact ht rfl
    | _ =>
      obtain ⟨x, -, hx⟩ := List.mem_map.mp hd
      cases hx

end Item

namespace Variable

variable (v : Variable)

theorem read?_array (data : List Datum) :
    v.read? (.array data) =
      if v.array then (data.mapM (Datum.scalar? v.format)).map .array
      else data.head?.bind (Datum.scalar? v.format) := by
  rfl

theorem read?_of_not_isArray {d : Datum} (h : d.isArray = false) :
    v.read? d = if v.array then (d.scalar? v.format).map fun value => .array [value]
      else d.scalar? v.format := by
  cases d with
  | array data => cases h
  | _ => rfl

/-- A variable takes all elements of an item or the first, even if the item has just one and stands
for that. -/
theorem read?_datum (item : Item) :
    v.read? item.datum =
      if v.array then (item.elements.mapM (Datum.scalar? v.format)).map .array
      else item.elements.head?.bind (Datum.scalar? v.format) := by
  by_cases hl : item.format = .list
  · rw [Item.datum_of_list hl, read?_array]
  · rw [Item.datum_of_flat hl]
    have hsingle := Item.isArray_of_mem_elements hl
    cases hdata : item.elements with
    | nil => rfl
    | cons d data =>
      cases data with
      | nil =>
        have hd : d.isArray = false := hsingle d (by rw [hdata]; exact List.mem_singleton_self d)
        rw [Datum.collapse, read?_of_not_isArray v hd]
        cases hc : d.scalar? v.format <;> cases v.array <;> simp [hc]
      | cons e data => rfl

end Variable

/-- The elements of an item that the value of a variable is made of. -/
def Item.neededBy (item : Item) (v : Variable) : List Datum :=
  if v.array then item.elements else item.elements.take 1

/-- The reasons for which an item has no value for a variable: there is no element, or one that is
needed is a row itself or a text that offers no number. -/
inductive Item.Withholds (item : Item) (v : Variable) : Prop
  | missing (ha : v.array = false) (h : item.elements = [])
  | row {d : Datum} (hd : d ∈ item.neededBy v) (h : d.isArray = true)
  | text {s : String} (hd : .text s ∈ item.neededBy v) (hf : v.format.isNumeric = true)
    (h : ¬ Text.Offers s v.format)

namespace Variable

variable (v : Variable) {item : Item}

theorem withholds_of_mem {d : Datum} (hd : d ∈ item.neededBy v) (h : d.scalar? v.format = none) :
    item.Withholds v := by
  rcases Datum.scalar?_eq_none_iff.mp h with hrow | ⟨s, rfl, hf, hs⟩
  · exact .row hd hrow
  · exact .text hd hf hs

theorem read?_eq_none_iff : v.read? item.datum = none ↔ item.Withholds v := by
  have hnone : v.read? item.datum = none ↔
      (v.array = false ∧ item.elements = []) ∨
        ∃ d ∈ item.neededBy v, d.scalar? v.format = none := by
    rw [read?_datum, Item.neededBy]
    cases v.array with
    | true => simp [mapM_eq_none_iff]
    | false => cases item.elements <;> simp
  rw [hnone]
  constructor
  · rintro (⟨ha, h⟩ | ⟨d, hd, h⟩)
    · exact .missing ha h
    · exact withholds_of_mem v hd h
  · rintro (⟨ha, h⟩ | ⟨hd, h⟩ | ⟨hd, hf, h⟩)
    · exact .inl ⟨ha, h⟩
    · exact .inr ⟨_, hd, Datum.scalar?_eq_none_iff.mpr (.inl h)⟩
    · exact .inr ⟨_, hd, Datum.scalar?_eq_none_iff.mpr (.inr ⟨_, rfl, hf, h⟩)⟩

theorem suits_of_read? {c : Value} (h : v.read? item.datum = some c) :
    c.isArray = v.array ∧ ∀ x ∈ c.singles, x.Suits v.format := by
  rw [read?_datum] at h
  cases ha : v.array with
  | true =>
    rw [ha, if_pos rfl] at h
    obtain ⟨cs, hcs, rfl⟩ := Option.map_eq_some_iff.mp h
    have hsuits : List.Forall₂ (fun (c : Value) d => c.Suits v.format ∧ d.scalar? v.format = some c)
        cs item.elements :=
      (mapM_eq_some_iff.mp hcs).flip.imp fun _ _ hc => ⟨Datum.suits_of_scalar? hc, hc⟩
    exact ⟨rfl, ((List.forall₂_and_left _ _).mp hsuits).1⟩
  | false =>
    rw [ha, if_neg Bool.false_ne_true] at h
    obtain ⟨d, -, hd⟩ := Option.bind_eq_some_iff.mp h
    have hc := Datum.suits_of_scalar? hd
    rw [hc.singles]
    exact ⟨hc.isArray, fun x hx => List.mem_singleton.mp hx ▸ hc⟩

/-- The value of a variable is made of the elements of an item one by one, whatever their number is.
All elements of an item that is no list have values. The value is a row for a variable of rows only,
and has what its format asks for; there is none exactly if a needed element is missing, is a row
itself, or is a text that offers no number. -/
theorem read?_element_by_element (item : Item) :
    (item.format ≠ .list → item.format ≠ .ascii →
      ∃ cs, List.Forall₂ (fun (d : Datum) c => d.scalar? v.format = some c) item.elements cs ∧
        v.read? item.datum = if v.array then some (.array cs) else cs.head?) ∧
    (∀ c, v.read? item.datum = some c →
      c.isArray = v.array ∧ ∀ x ∈ c.singles, x.Suits v.format) ∧
    (v.read? item.datum = none ↔ item.Withholds v) := by
  refine ⟨fun hl ht => ?_, fun c => suits_of_read? v, read?_eq_none_iff v⟩
  obtain ⟨cs, hcs⟩ := item.exists_scalars hl ht v.format
  refine ⟨cs, mapM_eq_some_iff.mp hcs, ?_⟩
  rw [read?_datum, hcs]
  split
  · rfl
  · have hrow := mapM_eq_some_iff.mp hcs
    generalize item.elements = data at hrow
    cases hrow with
    | nil => rfl
    | cons hc _ => exact hc

/-- A variable that holds a row of counts. -/
def countsVariable : Variable :=
  { name := "counts", format := .uint16, access := .read, array := true }

/-- A single count is a row of one, but a row inside a list has no value. -/
theorem read?_element_by_element_counts :
    countsVariable.read? (Item.datum (.u2 [7])) = some (.array [.nat 7]) ∧
      countsVariable.read? (Item.datum (.list [.u2 [7], .u2 []])) = none := by
  obtain ⟨hflat, -, -⟩ := read?_element_by_element countsVariable (.u2 [7])
  obtain ⟨-, -, hnone⟩ := read?_element_by_element countsVariable (.list [.u2 [7], .u2 []])
  refine ⟨?_, hnone.mpr (.row (.tail _ (.head _)) rfl)⟩
  obtain ⟨cs, hcs, hr⟩ := hflat ItemFormat.noConfusion ItemFormat.noConfusion
  rw [hr]
  cases hcs with
  | cons h hrest =>
    cases hrest
    cases h
    rfl

end Variable

end GemLink
