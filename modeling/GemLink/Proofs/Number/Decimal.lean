import GemLink.Number.Decimal
import GemLink.Proofs.Text.Numeral

/-!
Which texts are decimals. `Decimal.IsWritten` is their grammar: digits with at most one point, and
around them perhaps a sign and an exponent. Of the texts that spell no word for infinity or for what
is not a number they are those that are read (`Double.isSome_ofText?_iff`).
-/

namespace GemLink

namespace Decimal

/-- The digits of a decimal, which may have a point in front of them, behind them or among them. -/
inductive IsMantissa : List Char → Prop
  | whole {ds : List Char} (hn : ds ≠ []) (hd : ∀ c ∈ ds, c.isDigit = true) : IsMantissa ds
  | point {ds es : List Char} (hn : ds ++ es ≠ []) (hd : ∀ c ∈ ds, c.isDigit = true)
    (he : ∀ c ∈ es, c.isDigit = true) : IsMantissa (ds ++ '.' :: es)

/-- The exponent that a decimal may have. -/
inductive IsExponent : List Char → Prop
  | none : IsExponent []
  | power {c : Char} {numeral : List Char} {i : Int} (hc : c = 'e' ∨ c = 'E')
    (hn : Numeral.Denotes numeral i) : IsExponent (c :: numeral)

/-- A decimal: perhaps a sign, digits, and perhaps an exponent. -/
inductive IsWritten : List Char → Prop
  | plain {ds es : List Char} (hm : IsMantissa ds) (he : IsExponent es) : IsWritten (ds ++ es)
  | signed {c : Char} {ds es : List Char} (hc : c = '+' ∨ c = '-') (hm : IsMantissa ds)
    (he : IsExponent es) : IsWritten (c :: (ds ++ es))

variable {cs ds es : List Char}

theorem IsMantissa.head (h : IsMantissa cs) :
    ∃ c more, cs = c :: more ∧ (c.isDigit = true ∨ c = '.') := by
  cases h with
  | whole hn hd =>
    obtain ⟨c, more, rfl⟩ := List.exists_cons_of_ne_nil hn
    exact ⟨c, more, rfl, .inl (hd c List.mem_cons_self)⟩
  | @point ds es _ hd _ =>
    cases ds with
    | nil => exact ⟨'.', es, rfl, .inr rfl⟩
    | cons c more => exact ⟨c, _, rfl, .inl (hd c List.mem_cons_self)⟩

theorem IsWritten.ne_nil (h : IsWritten cs) : cs ≠ [] := by
  cases h with
  | plain hm _ =>
    obtain ⟨c, more, rfl, -⟩ := hm.head
    exact List.cons_ne_nil _ _
  | signed _ _ _ => exact List.cons_ne_nil _ _

/-- An exponent goes on neither with the digits of a decimal nor with its point. -/
theorem IsExponent.head (h : IsExponent es) : ∀ c ∈ es.head?, c.isDigit = false ∧ c ≠ '.' := by
  intro c hc
  cases h with
  | none => cases hc
  | power he _ =>
    cases hc
    rcases he with rfl | rfl
    · decide
    · decide

end Decimal

namespace Double

variable {cs ds es : List Char} {negative : Bool}

theorem isSome_exponent?_iff : (exponent? cs).isSome = true ↔ Decimal.IsExponent cs := by
  constructor
  · intro h
    cases cs with
    | nil => exact .none
    | cons c numeral =>
      rw [exponent?] at h
      split at h
      · next hc =>
        obtain ⟨i, hi⟩ := Option.isSome_iff_exists.mp h
        exact .power hc (Numeral.signed?_eq_some_iff.mp hi)
      · cases h
  · intro h
    cases h with
    | none => rfl
    | power hc hn =>
      rw [exponent?, if_pos hc, Numeral.signed?_eq_some_iff.mpr hn]
      rfl

/-- What is read without a sign, by its parts: the digits in front of a point, those behind it, and
what follows them. -/
theorem ofUnsigned?_point (negative : Bool) (hd : ∀ c ∈ ds, c.isDigit = true)
    (he : ∀ c ∈ es, c.isDigit = true) (hr : ∀ c ∈ cs.head?, c.isDigit = false) :
    ofUnsigned? negative (ds ++ '.' :: (es ++ cs)) =
      if ds.isEmpty && es.isEmpty then special? negative (ds ++ '.' :: (es ++ cs))
      else (exponent? cs).map fun e => ofDigits negative (ds ++ es) (e - es.length) := by
  have hpoint : ∀ c ∈ ('.' :: (es ++ cs)).head?, c.isDigit = false := by simp
  unfold ofUnsigned?
  rw [Text.takeWhile_append hd hpoint, Text.dropWhile_append hd hpoint]
  dsimp only
  split
  · next hp =>
    cases hp
    rw [Text.takeWhile_append he hr, Text.dropWhile_append he hr]
  · next hp => exact absurd rfl (hp _)

/-- What is read without a sign and without a point. -/
theorem ofUnsigned?_whole (negative : Bool) (hd : ∀ c ∈ ds, c.isDigit = true)
    (hr : ∀ c ∈ cs.head?, c.isDigit = false ∧ c ≠ '.') :
    ofUnsigned? negative (ds ++ cs) =
      if ds.isEmpty then special? negative (ds ++ cs)
      else (exponent? cs).map fun e => ofDigits negative ds e := by
  have hdigit : ∀ c ∈ cs.head?, c.isDigit = false := fun c hc => (hr c hc).1
  unfold ofUnsigned?
  rw [Text.takeWhile_append hd hdigit, Text.dropWhile_append hd hdigit]
  dsimp only
  split
  · exact absurd rfl (hr _ rfl).2
  · simp

/-- Words have a letter that no number has. -/
theorem special?_eq_none (negative : Bool) (h : ∀ c ∈ cs, c.toLower ≠ 'n') :
    special? negative cs = none := by
  have hword : ∀ word : String, 'n' ∈ word.toList → String.ofList (cs.map Char.toLower) ≠ word := by
    rintro word hn rfl
    rw [String.toList_ofList] at hn
    obtain ⟨c, hc, hl⟩ := List.mem_map.mp hn
    exact h c hc hl
  unfold special?
  split
  · next he => exact absurd he (hword _ (by decide))
  · next he => exact absurd he (hword _ (by decide))
  · next he => exact absurd he (hword _ (by decide))
  · rfl

/-- Without a sign a number is read if it consists of digits and perhaps an exponent. -/
theorem isSome_ofUnsigned?_iff (negative : Bool) (h : ∀ c ∈ cs, c.toLower ≠ 'n') :
    (ofUnsigned? negative cs).isSome = true ↔
      ∃ ds es, cs = ds ++ es ∧ Decimal.IsMantissa ds ∧ Decimal.IsExponent es := by
  have hnone := special?_eq_none negative h
  constructor
  · intro hs
    obtain ⟨ds, rest, rfl, hd, hr⟩ := Text.exists_row Char.isDigit cs
    by_cases hp : ∃ more, rest = '.' :: more
    · obtain ⟨more, rfl⟩ := hp
      obtain ⟨es, cs, rfl, he, hr⟩ := Text.exists_row Char.isDigit more
      rw [ofUnsigned?_point negative hd he hr, hnone] at hs
      split at hs
      · cases hs
      · next hn =>
        rw [Option.isSome_map] at hs
        have hm : ds ++ es ≠ [] := by simpa using hn
        exact ⟨ds ++ '.' :: es, cs, by simp, .point hm hd he, isSome_exponent?_iff.mp hs⟩
    · have hhead : ∀ c ∈ rest.head?, c.isDigit = false ∧ c ≠ '.' := by
        refine fun c hc => ⟨hr c hc, ?_⟩
        rintro rfl
        exact hp (List.head?_eq_some_iff.mp hc)
      rw [ofUnsigned?_whole negative hd hhead, hnone] at hs
      split at hs
      · cases hs
      · next hn =>
        rw [Option.isSome_map] at hs
        exact ⟨ds, rest, rfl, .whole (by simpa using hn) hd, isSome_exponent?_iff.mp hs⟩
  · rintro ⟨ds, es, rfl, hm, he⟩
    have hhead := he.head
    cases hm with
    | whole hn hd =>
      rw [ofUnsigned?_whole negative hd hhead, if_neg (by simpa using hn), Option.isSome_map]
      exact isSome_exponent?_iff.mpr he
    | @point ds fs hn hd hf =>
      rw [List.append_assoc, List.cons_append,
        ofUnsigned?_point negative hd hf fun c hc => (hhead c hc).1, if_neg ?_, Option.isSome_map]
      · exact isSome_exponent?_iff.mpr he
      · simpa using hn

/-- The texts that are read as a number are decimals, if they spell no word. -/
theorem isSome_ofText?_iff (h : ∀ c ∈ cs, c.toLower ≠ 'n') :
    (ofText? cs).isSome = true ↔ Decimal.IsWritten cs := by
  constructor
  · intro hs
    unfold ofText? at hs
    split at hs
    · next cs =>
      rw [List.forall_mem_cons] at h
      obtain ⟨ds, es, rfl, hm, he⟩ := (isSome_ofUnsigned?_iff true h.2).mp hs
      exact .signed (.inr rfl) hm he
    · next cs =>
      rw [List.forall_mem_cons] at h
      obtain ⟨ds, es, rfl, hm, he⟩ := (isSome_ofUnsigned?_iff false h.2).mp hs
      exact .signed (.inl rfl) hm he
    · obtain ⟨ds, es, rfl, hm, he⟩ := (isSome_ofUnsigned?_iff false h).mp hs
      exact .plain hm he
  · intro hw
    cases hw with
    | plain hm he =>
      have hs := (isSome_ofUnsigned?_iff false h).mpr ⟨_, _, rfl, hm, he⟩
      obtain ⟨c, more, hc, hdigit⟩ := hm.head
      unfold ofText?
      rw [hc, List.cons_append] at hs ⊢
      split
      · next heq =>
        cases heq
        exact absurd hdigit (by decide)
      · next heq =>
        cases heq
        exact absurd hdigit (by decide)
      · exact hs
    | signed hc hm he =>
      rw [List.forall_mem_cons] at h
      rcases hc with rfl | rfl
      · exact (isSome_ofUnsigned?_iff false h.2).mpr ⟨_, _, rfl, hm, he⟩
      · exact (isSome_ofUnsigned?_iff true h.2).mpr ⟨_, _, rfl, hm, he⟩

end Double

end GemLink
