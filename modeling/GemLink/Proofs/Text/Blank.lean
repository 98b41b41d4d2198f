import GemLink.Proofs.Text.Numeral

/-!
Trimming. A text is what it is trimmed to between two rows of white space (`exists_trim`), and a
text without white space is found between any two such rows (`trim_append`). Numerals have none
(`not_isBlank_of_denotes`).
-/

namespace GemLink.Text

variable {front core back rest : List Char}

theorem trimFront_append (hf : ∀ c ∈ front, isBlank c = true)
    (hr : ∀ c ∈ rest.head?, isBlank c = false) : trimFront (front ++ rest) = rest :=
  dropWhile_append hf hr

theorem exists_trimFront (cs : List Char) :
    ∃ front, (∀ c ∈ front, isBlank c = true) ∧ cs = front ++ trimFront cs := by
  refine ⟨cs.takeWhile isBlank, fun c hc => ?_, List.takeWhile_append_dropWhile.symm⟩
  exact List.all_eq_true.mp List.all_takeWhile c hc

/-- A text is what it is trimmed to, between white space. -/
theorem exists_trim (cs : List Char) :
    ∃ front back, (∀ c ∈ front, isBlank c = true) ∧ (∀ c ∈ back, isBlank c = true) ∧
      cs = front ++ trim cs ++ back := by
  obtain ⟨front, hf, hcs⟩ := exists_trimFront cs
  obtain ⟨back, hb, hrest⟩ := exists_trimFront (trimFront cs).reverse
  refine ⟨front, back.reverse, hf, fun c hc => hb c (List.mem_reverse.mp hc), ?_⟩
  have hcore : trimFront cs = trim cs ++ back.reverse := by
    rw [← List.reverse_reverse (trimFront cs), hrest, List.reverse_append]
    rfl
  rw [List.append_assoc, ← hcore]
  exact hcs

/-- A text without white space is what is left when the white space around it is dropped. -/
theorem trim_append (hf : ∀ c ∈ front, isBlank c = true) (hb : ∀ c ∈ back, isBlank c = true)
    (hc : ∀ c ∈ core, isBlank c = false) : trim (front ++ core ++ back) = core := by
  unfold trim
  cases core with
  | nil =>
    have hblank : ∀ c ∈ front ++ back, isBlank c = true := List.forall_mem_append.mpr ⟨hf, hb⟩
    have hnil : trimFront (front ++ back ++ []) = [] := trimFront_append hblank nofun
    simp only [List.append_nil] at hnil ⊢
    rw [hnil]
    rfl
  | cons c cs =>
    have hfront : trimFront (front ++ (c :: cs ++ back)) = c :: cs ++ back :=
      trimFront_append hf fun d hd => hc d (List.mem_of_mem_head? (by simpa using hd))
    have hback : trimFront (back.reverse ++ (c :: cs).reverse) = (c :: cs).reverse := by
      refine trimFront_append (fun d hd => hb d (List.mem_reverse.mp hd)) fun d hd => ?_
      exact hc d (List.mem_reverse.mp (List.mem_of_mem_head? hd))
    rw [List.append_assoc, hfront, List.reverse_append, hback, List.reverse_reverse]

theorem not_isBlank_of_isDigit {c : Char} (h : c.isDigit = true) : isBlank c = false := by
  have hc : 48 ≤ c.toNat ∧ c.toNat ≤ 57 := by
    simpa [Char.isDigit, UInt32.le_iff_toNat_le] using h
  rw [Bool.eq_false_iff, ne_eq, isBlank, List.any_eq_true]
  rintro ⟨⟨low, high⟩, hrange, hin⟩
  have hb : low ≤ c.toNat ∧ c.toNat ≤ high := by simpa using hin
  simp only [blankRanges, List.mem_cons, List.not_mem_nil, or_false, Prod.mk.injEq] at hrange
  omega

/-- Numerals are free of white space. -/
theorem not_isBlank_of_denotes {numeral : List Char} {i : Int} (h : Numeral.Denotes numeral i) :
    ∀ c ∈ numeral, isBlank c = false := by
  cases h with
  | plain h => exact fun c hc => not_isBlank_of_isDigit (h.2.1 c hc)
  | plus h | minus h =>
    rw [List.forall_mem_cons]
    exact ⟨by decide, fun c hc => not_isBlank_of_isDigit (h.2.1 c hc)⟩

end GemLink.Text
