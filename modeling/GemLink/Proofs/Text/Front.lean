import GemLink.Proofs.Text.Utf8

/-!
What is kept of a text that is cut to a number of bytes. `IsFront limit s t` says what the cut is to
be: `t` is made of whole characters at the beginning of `s`, it fits, and nothing longer does. There
is exactly one such text (`IsFront.unique`), and `front` finds it (`isFront_front`).
-/

namespace GemLink.Utf8

/-- Whether `t` is the longest beginning of `s` in whole characters that takes at most `limit`
bytes. -/
structure IsFront (limit : Nat) (s t : String) : Prop where
  /-- It is a beginning of the text. -/
  begins : t.toList <+: s.toList
  /-- Its bytes fit. -/
  fits : (encode t).length ≤ limit
  /-- Every other beginning that fits is a beginning of it. -/
  longest : ∀ u : String, u.toList <+: s.toList → (encode u).length ≤ limit →
    u.toList <+: t.toList

theorem IsFront.unique {limit : Nat} {s t u : String} (ht : IsFront limit s t)
    (hu : IsFront limit s u) : t = u := by
  have h : t.toList <+: u.toList := hu.longest t ht.begins ht.fits
  have h' : u.toList <+: t.toList := ht.longest u hu.begins hu.fits
  exact String.toList_inj.mp (h.eq_of_length_le h'.length_le)

theorem length_flatMap_encodeChar_cons (c : Char) (cs : List Char) :
    ((c :: cs).flatMap String.utf8EncodeChar).length =
      c.utf8Size + (cs.flatMap String.utf8EncodeChar).length := by
  rw [List.flatMap_cons, List.length_append, String.length_utf8EncodeChar]

/-- What is kept is a beginning that fits. -/
theorem front_isPrefix (limit : Nat) (cs : List Char) :
    front limit cs <+: cs ∧ ((front limit cs).flatMap String.utf8EncodeChar).length ≤ limit := by
  induction cs generalizing limit with
  | nil => exact ⟨List.prefix_refl _, Nat.zero_le _⟩
  | cons c cs ih =>
    unfold front
    split
    · next h =>
      obtain ⟨hp, hl⟩ := ih (limit - c.utf8Size)
      refine ⟨(List.prefix_cons_inj c).mpr hp, ?_⟩
      rw [length_flatMap_encodeChar_cons]
      omega
    · exact ⟨List.nil_prefix, Nat.zero_le _⟩

/-- No beginning that fits goes further than what is kept: the first character that is left out
does not fit behind those before it. -/
theorem prefix_front {limit : Nat} {cs ds : List Char} (hp : ds <+: cs)
    (hl : (ds.flatMap String.utf8EncodeChar).length ≤ limit) : ds <+: front limit cs := by
  induction cs generalizing limit ds with
  | nil =>
    rw [List.prefix_nil.mp hp]
    exact List.nil_prefix
  | cons c cs ih =>
    cases ds with
    | nil => exact List.nil_prefix
    | cons d ds =>
      obtain ⟨rfl, hds⟩ := List.cons_prefix_cons.mp hp
      rw [length_flatMap_encodeChar_cons] at hl
      unfold front
      rw [if_pos (by omega), List.prefix_cons_inj]
      exact ih hds (by omega)

theorem isFront_front (limit : Nat) (s : String) :
    IsFront limit s (String.ofList (front limit s.toList)) := by
  have h := front_isPrefix limit s.toList
  constructor
  case begins =>
    rw [String.toList_ofList]
    exact h.1
  case fits =>
    unfold encode
    rw [String.toList_ofList]
    exact h.2
  case longest =>
    intro u hp hl
    rw [String.toList_ofList]
    exact prefix_front hp hl

end GemLink.Utf8
