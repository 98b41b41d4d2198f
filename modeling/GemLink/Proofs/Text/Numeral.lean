import GemLink.Text.Numeral

/-!
The numeral of a natural number is a row of digits that denotes it (`natural?_ofNat`), and it has no
leading zero (`ofNat_head`).

`Denotes` says which texts are numerals of a whole number: rows of digits, with or without a sign.
They are what is read as one (`signed?_eq_some_iff`, `unsigned?_eq_some_iff`), and what is found at
the front of a text that goes on with something else than a digit (`leading?_append`).
-/

namespace GemLink

namespace Text

variable {p : Char → Bool} {row rest : List Char}

/-- A row of characters of one kind is taken from the front of a text as far as it reaches. -/
theorem takeWhile_append (hrow : ∀ c ∈ row, p c = true) (hrest : ∀ c ∈ rest.head?, p c = false) :
    (row ++ rest).takeWhile p = row := by
  rw [List.takeWhile_append_of_pos hrow]
  cases rest with
  | nil => exact List.append_nil row
  | cons c cs => rw [List.takeWhile_cons_of_neg (by simp [hrest c rfl]), List.append_nil]

theorem dropWhile_append (hrow : ∀ c ∈ row, p c = true) (hrest : ∀ c ∈ rest.head?, p c = false) :
    (row ++ rest).dropWhile p = rest := by
  rw [List.dropWhile_append_of_pos hrow]
  cases rest with
  | nil => rfl
  | cons c cs => exact List.dropWhile_cons_of_neg (by simp [hrest c rfl])

/-- Every text begins with a row of characters of one kind, which may be empty. -/
theorem exists_row (p : Char → Bool) (cs : List Char) :
    ∃ row rest, cs = row ++ rest ∧ (∀ c ∈ row, p c = true) ∧ ∀ c ∈ rest.head?, p c = false := by
  refine ⟨cs.takeWhile p, cs.dropWhile p, List.takeWhile_append_dropWhile.symm,
    fun c hc => List.all_eq_true.mp List.all_takeWhile c hc, fun c hc => ?_⟩
  have hn := List.head?_dropWhile_not p cs
  rw [Option.mem_def.mp hc] at hn
  exact hn

end Text

namespace Numeral

theorem digitValue_digit {d : Nat} (h : d < 10) : digitValue (digit d) = d := by
  revert d
  decide

theorem isDigit_digit {d : Nat} (h : d < 10) : (digit d).isDigit = true := by
  revert d
  decide

theorem digit_ne_zero {d : Nat} (h : d < 10) (h0 : d ≠ 0) : digit d ≠ '0' := by
  revert d
  decide

theorem isDigit_of_mem_ofNat (n : Nat) {c : Char} (h : c ∈ ofNat n) : c.isDigit = true := by
  induction n using Nat.strongRecOn with
  | ind n ih =>
    unfold ofNat at h
    split at h
    · next hn =>
      rw [List.mem_singleton.mp h]
      exact isDigit_digit hn
    · next hn =>
      rw [List.mem_append, List.mem_singleton] at h
      obtain h | rfl := h
      · exact ih (n / 10) (by omega) h
      · exact isDigit_digit (Nat.mod_lt n (by omega))

/-- A numeral begins with a digit, and with a zero only if it is the numeral of zero. -/
theorem ofNat_head (n : Nat) : ∃ c cs, ofNat n = c :: cs ∧ (c = '0' → n = 0) := by
  induction n using Nat.strongRecOn with
  | ind n ih =>
    unfold ofNat
    split
    · next hn =>
      refine ⟨_, _, rfl, fun h => ?_⟩
      by_cases h0 : n = 0
      · exact h0
      · exact absurd h (digit_ne_zero hn h0)
    · obtain ⟨c, cs, h, h0⟩ := ih (n / 10) (by omega)
      rw [h]
      refine ⟨c, cs ++ [digit (n % 10)], rfl, fun hc => ?_⟩
      have hn := h0 hc
      omega

theorem value_append_digit (ds : List Char) (c : Char) :
    value (ds ++ [c]) = 10 * value ds + digitValue c := by
  unfold value
  rw [List.foldl_append]
  rfl

theorem value_ofNat (n : Nat) : value (ofNat n) = n := by
  induction n using Nat.strongRecOn with
  | ind n ih =>
    unfold ofNat
    split
    · next hn =>
      show 10 * 0 + digitValue (digit n) = n
      rw [digitValue_digit hn]
      omega
    · next hn =>
      rw [value_append_digit, ih (n / 10) (by omega), digitValue_digit (Nat.mod_lt n (by omega))]
      omega

/-! ## Rows of digits -/

/-- A row of at least one digit and the number that it denotes. -/
def IsRow (ds : List Char) (n : Nat) : Prop :=
  ds ≠ [] ∧ (∀ c ∈ ds, c.isDigit = true) ∧ value ds = n

theorem isRow_ofNat (n : Nat) : IsRow (ofNat n) n := by
  refine ⟨?_, fun _ => isDigit_of_mem_ofNat n, value_ofNat n⟩
  obtain ⟨c, cs, h, -⟩ := ofNat_head n
  rw [h]
  exact List.cons_ne_nil c cs

theorem natural?_eq_some_iff {cs : List Char} {n : Nat} : natural? cs = some n ↔ IsRow cs n := by
  unfold natural? IsRow
  simp [and_assoc]

/-- A natural number is read back from its numeral. -/
theorem natural?_ofNat (n : Nat) : natural? (ofNat n) = some n :=
  natural?_eq_some_iff.mpr (isRow_ofNat n)

theorem not_isRow_cons {c : Char} (hc : c.isDigit = false) (ds : List Char) (n : Nat) :
    ¬ IsRow (c :: ds) n := by
  rintro ⟨-, hd, -⟩
  rw [hd c List.mem_cons_self] at hc
  cases hc

/-! ## Signs -/

/-- The numerals of whole numbers: digits, with a sign in front of them or without one. -/
inductive Denotes : List Char → Int → Prop
  | plain {ds : List Char} {n : Nat} (h : IsRow ds n) : Denotes ds n
  | plus {ds : List Char} {n : Nat} (h : IsRow ds n) : Denotes ('+' :: ds) n
  | minus {ds : List Char} {n : Nat} (h : IsRow ds n) : Denotes ('-' :: ds) (-n)

variable {cs ds rest : List Char} {n : Nat} {i : Int}

theorem Denotes.ne_nil (h : Denotes cs i) : cs ≠ [] := by
  cases h with
  | plain h => exact h.1
  | plus _ | minus _ => exact List.cons_ne_nil _ _

/-- Without a sign a row of digits is read as it is. -/
theorem IsRow.unsigned? (h : IsRow ds n) : Numeral.unsigned? ds = some n := by
  unfold Numeral.unsigned?
  split
  · exact absurd h (not_isRow_cons (by decide) _ _)
  · exact natural?_eq_some_iff.mpr h

theorem IsRow.signed? (h : IsRow ds n) : Numeral.signed? ds = some (n : Int) := by
  unfold Numeral.signed?
  split
  · exact absurd h (not_isRow_cons (by decide) _ _)
  · rw [h.unsigned?]
    rfl

/-- Numerals without a minus sign are read as natural numbers. -/
theorem unsigned?_eq_some_iff :
    unsigned? cs = some n ↔ Denotes cs n ∧ cs.head? ≠ some '-' := by
  constructor
  · intro h
    unfold unsigned? at h
    split at h
    · exact ⟨.plus (natural?_eq_some_iff.mp h), by simp⟩
    · have hrow := natural?_eq_some_iff.mp h
      refine ⟨.plain hrow, fun hm => ?_⟩
      obtain ⟨more, rfl⟩ := List.head?_eq_some_iff.mp hm
      exact not_isRow_cons (by decide) _ _ hrow
  · rintro ⟨h, hm⟩
    generalize hi : (n : Int) = i at h
    cases h with
    | plain h => rw [h.unsigned?, Int.ofNat.inj hi]
    | plus h => exact (natural?_eq_some_iff.mpr h).trans (by rw [Int.ofNat.inj hi])
    | minus _ => exact absurd rfl hm

/-- All numerals are read as whole numbers. -/
theorem signed?_eq_some_iff : signed? cs = some i ↔ Denotes cs i := by
  constructor
  · intro h
    unfold signed? at h
    split at h
    · next ds =>
      obtain ⟨n, hn, rfl⟩ : ∃ n : Nat, natural? ds = some n ∧ -(n : Int) = i := by
        simpa [Option.bind_eq_some_iff] using h
      exact .minus (natural?_eq_some_iff.mp hn)
    · obtain ⟨n, hn, rfl⟩ : ∃ n : Nat, unsigned? cs = some n ∧ (n : Int) = i := by
        simpa [Option.bind_eq_some_iff] using h
      exact (unsigned?_eq_some_iff.mp hn).1
  · intro h
    cases h with
    | plain h => exact h.signed?
    | plus h => simp [Numeral.signed?, Numeral.unsigned?, natural?_eq_some_iff.mpr h]
    | minus h => simp [Numeral.signed?, natural?_eq_some_iff.mpr h]

/-- A whole number has the numeral that it is written as. -/
theorem denotes_ofInt (i : Int) : Denotes (ofInt i) i := by
  cases i with
  | ofNat n => exact .plain (isRow_ofNat n)
  | negSucc n => exact .minus (isRow_ofNat (n + 1))

/-! ## Numerals in front of something else -/

theorem signedRow_append (h : IsRow ds n) (sign : List Char)
    (hr : ∀ c ∈ rest.head?, c.isDigit = false) :
    leading?.signedRow sign (ds ++ rest) = some (sign ++ ds) := by
  unfold leading?.signedRow
  rw [Text.takeWhile_append h.2.1 hr]
  split
  · exact absurd rfl h.1
  · rfl

/-- The numeral at the front of a text is found, if no digit follows it. -/
theorem leading?_append (h : Denotes cs i) (hr : ∀ c ∈ rest.head?, c.isDigit = false) :
    leading? (cs ++ rest) = some cs := by
  cases h with
  | plain h =>
    rw [← List.nil_append cs, ← signedRow_append h [] hr]
    obtain ⟨c, more, rfl⟩ := List.exists_cons_of_ne_nil h.1
    unfold leading?
    split
    · next he =>
      obtain ⟨rfl, -⟩ := List.cons.inj he
      exact absurd h (not_isRow_cons (by decide) _ _)
    · next he =>
      obtain ⟨rfl, -⟩ := List.cons.inj he
      exact absurd h (not_isRow_cons (by decide) _ _)
    · rfl
  | plus h => exact signedRow_append h ['+'] hr
  | minus h => exact signedRow_append h ['-'] hr

theorem exists_of_signedRow {sign : List Char} (h : leading?.signedRow sign cs = some ds) :
    ∃ rest, sign ++ cs = ds ++ rest ∧ ∀ c ∈ rest.head?, c.isDigit = false := by
  obtain ⟨row, rest, rfl, hrow, hrest⟩ := Text.exists_row Char.isDigit cs
  unfold leading?.signedRow at h
  rw [Text.takeWhile_append hrow hrest] at h
  split at h
  · cases h
  · cases h
    exact ⟨rest, (List.append_assoc _ _ _).symm, hrest⟩

/-- What is found stands at the front, and no digit follows it. -/
theorem exists_of_leading? (h : leading? cs = some ds) :
    ∃ rest, cs = ds ++ rest ∧ ∀ c ∈ rest.head?, c.isDigit = false := by
  unfold leading? at h
  split at h
  · exact exists_of_signedRow h
  · exact exists_of_signedRow h
  · exact exists_of_signedRow h

end Numeral

end GemLink
