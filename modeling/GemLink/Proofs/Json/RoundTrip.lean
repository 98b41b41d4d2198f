import GemLink.Proofs.Json.Literals

/-!
A document is read back from its compact text (`parse?_render`), whatever its strings hold and
however deep it nests, if its numbers are literals of the grammar (`Written`). Elements and members
are taken one by one (`elements?_more`, `members?_more`); arrays and objects are put together from
them by induction over the document (`isReadBack`), with fuel for two steps on each character.
-/

namespace GemLink.Json

/-! ## Documents -/

mutual

/-- Whether all numbers in a document are literals of the grammar. -/
def Written : Json → Prop
  | .number literal => IsNumber literal.toList
  | .array elements => WrittenAll elements
  | .object members => WrittenMembers members
  | .null | .bool _ | .string _ => True

/-- Whether all numbers in documents in a row are literals of the grammar. -/
def WrittenAll : List Json → Prop
  | [] => True
  | x :: xs => Written x ∧ WrittenAll xs

/-- Whether all numbers in the members of an object are literals of the grammar. -/
def WrittenMembers : List (Option String × Json) → Prop
  | [] => True
  | (_, x) :: rest => Written x ∧ WrittenMembers rest

end

theorem writtenAll_iff (xs : List Json) : WrittenAll xs ↔ ∀ x ∈ xs, x.Written := by
  induction xs with
  | nil => simp [WrittenAll]
  | cons x xs ih => rw [WrittenAll, ih, List.forall_mem_cons]

theorem writtenMembers_iff (members : List (Option String × Json)) :
    WrittenMembers members ↔ ∀ m ∈ members, m.2.Written := by
  induction members with
  | nil => simp [WrittenMembers]
  | cons m rest ih => rw [WrittenMembers, ih, List.forall_mem_cons]

/-- What holds of a document follows from what holds of its parts. -/
theorem induction {P : Json → Prop} (null : P .null) (bool : ∀ value, P (.bool value))
    (number : ∀ literal, P (.number literal)) (string : ∀ text, P (.string text))
    (array : ∀ elements, (∀ x ∈ elements, P x) → P (.array elements))
    (object : ∀ members, (∀ m ∈ members, P m.2) → P (.object members)) (j : Json) : P j := by
  refine @Json.rec P (fun xs => ∀ x ∈ xs, P x) (fun members => ∀ m ∈ members, P m.2)
    (fun m => P m.2) null bool number string array object ?_ ?_ ?_ ?_ ?_ j
  · exact List.forall_mem_nil _
  · intro x xs hx hxs
    exact List.forall_mem_cons.mpr ⟨hx, hxs⟩
  · exact List.forall_mem_nil _
  · intro m rest hm hrest
    exact List.forall_mem_cons.mpr ⟨hm, hrest⟩
  · intro name x hx
    exact hx

/-- The text of a document begins with a character that is neither a blank nor closes an array. -/
theorem chars_head {j : Json} (h : j.Written) :
    ∃ c cs, j.chars = c :: cs ∧ c ∉ [' ', '\n', '\t', '\r', ']'] := by
  cases j with
  | null => exact ⟨'n', ['u', 'l', 'l'], by decide, by decide⟩
  | bool b =>
    cases b with
    | true => exact ⟨'t', ['r', 'u', 'e'], by decide, by decide⟩
    | false => exact ⟨'f', ['a', 'l', 's', 'e'], by decide, by decide⟩
  | string text =>
    cases text with
    | none => exact ⟨'"', _, rfl, by decide⟩
    | some s => exact ⟨'"', _, rfl, by decide⟩
  | array elements => exact ⟨'[', _, rfl, by decide⟩
  | object members => exact ⟨'{', _, rfl, by decide⟩
  | number literal =>
    obtain ⟨c, more, hl, hc⟩ := IsNumber.head h
    refine ⟨c, more, hl, fun hb => ?_⟩
    have hn := (by simp : ∀ c ∈ [' ', '\n', '\t', '\r', ']'], c ≠ '-' ∧ c.isDigit = false) c hb
    simp [hn] at hc

theorem value?_number {c : Char} (hc : c = '-' ∨ c.isDigit = true) (fuel : Nat) (cs : List Char) :
    value? (fuel + 1) (c :: cs) = number? (c :: cs) := by
  have hb : c ∉ ['{', '[', '"', 'n', 't', 'f', ' ', '\n', '\t', '\r'] := by
    intro hm
    have hn := (by simp : ∀ c ∈ ['{', '[', '"', 'n', 't', 'f', ' ', '\n', '\t', '\r'],
      c ≠ '-' ∧ c.isDigit = false) c hm
    simp [hn] at hc
  simp only [List.mem_cons, List.not_mem_nil, or_false, not_or] at hb
  rw [value?.eq_def]
  dsimp only
  rw [skipBlank_cons (by simp [hb])]
  split <;> simp_all

/-- Whether a document is read from the front of every text that begins with its own, as long as
there is fuel for each character. -/
def IsReadBack (j : Json) : Prop :=
  ∀ (fuel : Nat) (rest : List Char), 2 * j.chars.length ≤ fuel → Follows closers rest →
    value? fuel (j.chars ++ rest) = some (j, rest)

theorem exists_fuel {cs : List Char} {fuel : Nat} (hf : 2 * cs.length ≤ fuel) (hn : cs ≠ []) :
    ∃ n, fuel = n + 1 := by
  have hp := List.length_pos_iff.mpr hn
  exact ⟨fuel - 1, by omega⟩

theorem elements?_more {x : Json} {fuel : Nat} (h : x.IsReadBack)
    (hf : 2 * x.chars.length ≤ fuel) (before : List Json) (rest : List Char) :
    elements? (fuel + 1) before (x.chars ++ ',' :: rest) = elements? fuel (x :: before) rest := by
  rw [elements?, h _ _ hf (follows_cons (by decide) rest)]
  dsimp only
  rw [skipBlank_cons (by decide)]
  rfl

theorem elements?_last {x : Json} {fuel : Nat} (h : x.IsReadBack)
    (hf : 2 * x.chars.length ≤ fuel) (before : List Json) (rest : List Char) :
    elements? (fuel + 1) before (x.chars ++ ']' :: rest) =
      some (.array (before.reverse ++ [x]), rest) := by
  rw [elements?, h _ _ hf (follows_cons (by decide) rest)]
  dsimp only
  rw [skipBlank_cons (by decide), List.reverse_cons]
  rfl

theorem elements?_chars {xs : List Json} (hn : xs ≠ []) (h : ∀ x ∈ xs, IsReadBack x) {fuel : Nat}
    (hf : 2 * (elementChars xs).length + 1 ≤ fuel) (before : List Json) (rest : List Char) :
    elements? fuel before (elementChars xs ++ ']' :: rest) =
      some (.array (before.reverse ++ xs), rest) := by
  induction xs generalizing fuel before with
  | nil => exact absurd rfl hn
  | cons x xs ih =>
    rw [List.forall_mem_cons] at h
    obtain ⟨fuel, rfl⟩ : ∃ n, fuel = n + 1 := ⟨fuel - 1, by omega⟩
    cases xs with
    | nil =>
      rw [elementChars] at hf ⊢
      exact elements?_last h.1 (by omega) before rest
    | cons y ys =>
      rw [elementChars, List.length_append, List.length_cons] at hf
      · rw [elementChars, List.append_assoc, List.cons_append, elements?_more h.1 (by omega),
          ih (List.cons_ne_nil y ys) h.2 (by omega), List.reverse_cons, List.append_assoc,
          List.singleton_append]
        nofun
      · nofun

/-- A member is read up to what follows its document. -/
theorem members?_member {name : Option String} {x : Json} {c : Char} {fuel : Nat}
    (h : x.IsReadBack) (hc : c ∈ closers) (hf : 2 * x.chars.length ≤ fuel) (rest : List Char) :
    ∃ cs behind, skipBlank (quoted name ++ ':' :: (x.chars ++ c :: rest)) = '"' :: cs ∧
      literal? cs = some (name, behind) ∧ skipBlank behind = ':' :: (x.chars ++ c :: rest) ∧
      value? fuel (x.chars ++ c :: rest) = some (x, c :: rest) ∧
      skipBlank (c :: rest) = c :: rest := by
  obtain ⟨cs, hq, hl⟩ := literal?_quoted name (':' :: (x.chars ++ c :: rest))
  refine ⟨cs, _, ?_, hl, skipBlank_cons (by decide) _, h _ _ hf (follows_cons hc rest), ?_⟩
  · rw [hq, skipBlank_cons (by decide)]
  · exact skipBlank_cons ((by simp [closers] : ∀ c ∈ closers, c ∉ [' ', '\n', '\t', '\r']) c hc) rest

theorem members?_more {name : Option String} {x : Json} {fuel : Nat} (h : x.IsReadBack)
    (hf : 2 * x.chars.length ≤ fuel) (before : List (Option String × Json)) (rest : List Char) :
    members? (fuel + 1) before (quoted name ++ ':' :: (x.chars ++ ',' :: rest)) =
      members? fuel ((name, x) :: before) rest := by
  obtain ⟨cs, behind, hq, hl, hb, hx, hs⟩ := members?_member (c := ',') h (by decide) hf rest
  rw [members?, hq]
  simp only [hl, hb, hx, hs]

theorem members?_last {name : Option String} {x : Json} {fuel : Nat} (h : x.IsReadBack)
    (hf : 2 * x.chars.length ≤ fuel) (before : List (Option String × Json)) (rest : List Char) :
    members? (fuel + 1) before (quoted name ++ ':' :: (x.chars ++ '}' :: rest)) =
      some (.object (before.reverse ++ [(name, x)]), rest) := by
  obtain ⟨cs, behind, hq, hl, hb, hx, hs⟩ := members?_member (c := '}') h (by decide) hf rest
  rw [members?, hq]
  simp only [hl, hb, hx, hs, List.reverse_cons]

theorem members?_chars {members : List (Option String × Json)} (hn : members ≠ [])
    (h : ∀ m ∈ members, IsReadBack m.2) {fuel : Nat}
    (hf : 2 * (memberChars members).length + 1 ≤ fuel) (before : List (Option String × Json))
    (rest : List Char) :
    members? fuel before (memberChars members ++ '}' :: rest) =
      some (.object (before.reverse ++ members), rest) := by
  induction members generalizing fuel before with
  | nil => exact absurd rfl hn
  | cons m members ih =>
    rw [List.forall_mem_cons] at h
    obtain ⟨fuel, rfl⟩ : ∃ n, fuel = n + 1 := ⟨fuel - 1, by omega⟩
    obtain ⟨name, x⟩ := m
    have hx : x.IsReadBack := h.1
    cases members with
    | nil =>
      rw [memberChars, List.length_append, List.length_cons] at hf
      rw [memberChars, List.append_assoc, List.cons_append]
      exact members?_last hx (by omega) before rest
    | cons m ms =>
      rw [memberChars, List.length_append, List.length_cons, List.length_append,
        List.length_cons] at hf
      · rw [memberChars, List.append_assoc, List.cons_append, List.append_assoc, List.cons_append,
          members?_more hx (by omega), ih (List.cons_ne_nil m ms) h.2 (by omega),
          List.reverse_cons, List.append_assoc, List.singleton_append]
        nofun
      · nofun

theorem elementChars_head {x : Json} (h : x.Written) (xs : List Json) :
    ∃ c cs, elementChars (x :: xs) = c :: cs ∧ c ∉ [' ', '\n', '\t', '\r', ']'] := by
  obtain ⟨c, cs, hc, hb⟩ := chars_head h
  cases xs with
  | nil => exact ⟨c, cs, hc, hb⟩
  | cons y ys =>
    refine ⟨c, cs ++ ',' :: elementChars (y :: ys), ?_, hb⟩
    rw [elementChars, hc, List.cons_append]
    nofun

theorem value?_bracket (fuel : Nat) {cs rest : List Char} {c : Char} (hs : skipBlank cs = c :: rest)
    (hc : c ≠ ']') : value? (fuel + 1) ('[' :: cs) = elements? fuel [] (c :: rest) := by
  rw [value?, skipBlank_cons (by decide)]
  simp only [hs]
  split
  · next he => exact absurd (List.cons.inj he).1 hc
  · rfl

theorem isReadBack_array {elements : List Json} (hw : ∀ x ∈ elements, x.Written)
    (h : ∀ x ∈ elements, IsReadBack x) : IsReadBack (.array elements) := by
  intro fuel rest hf hr
  rw [chars, List.length_cons, List.length_append, List.length_singleton] at hf
  obtain ⟨fuel, rfl⟩ : ∃ n, fuel = n + 1 := ⟨fuel - 1, by omega⟩
  rw [chars, List.cons_append, List.append_assoc]
  cases elements with
  | nil =>
    rw [value?, skipBlank_cons (by decide)]
    rfl
  | cons x xs =>
    have he := elements?_chars (List.cons_ne_nil x xs) h (show _ ≤ fuel by omega) [] rest
    obtain ⟨c, cs, hc, hb⟩ := elementChars_head (hw x (List.mem_cons_self ..)) xs
    simp only [List.mem_cons, List.not_mem_nil, or_false, not_or] at hb
    rw [hc, List.cons_append] at he ⊢
    rw [value?_bracket fuel (skipBlank_cons (by simp [hb]) _) hb.2.2.2.2]
    exact he

theorem memberChars_head (m : Option String × Json) (ms : List (Option String × Json)) :
    ∃ cs, memberChars (m :: ms) = '"' :: cs := by
  obtain ⟨name, x⟩ := m
  cases ms with
  | nil =>
    obtain ⟨cs, hq, -⟩ := literal?_quoted name (':' :: x.chars)
    exact ⟨cs, hq⟩
  | cons m ms =>
    obtain ⟨cs, hq, -⟩ := literal?_quoted name (':' :: (x.chars ++ ',' :: memberChars (m :: ms)))
    refine ⟨cs, ?_⟩
    rw [memberChars, hq]
    nofun

theorem value?_brace (fuel : Nat) {cs rest : List Char} {c : Char} (hs : skipBlank cs = c :: rest)
    (hc : c ≠ '}') : value? (fuel + 1) ('{' :: cs) = members? fuel [] (c :: rest) := by
  rw [value?, skipBlank_cons (by decide)]
  simp only [hs]
  split
  · next he => exact absurd (List.cons.inj he).1 hc
  · rfl

theorem isReadBack_object {members : List (Option String × Json)}
    (h : ∀ m ∈ members, IsReadBack m.2) : IsReadBack (.object members) := by
  intro fuel rest hf hr
  rw [chars, List.length_cons, List.length_append, List.length_singleton] at hf
  obtain ⟨fuel, rfl⟩ : ∃ n, fuel = n + 1 := ⟨fuel - 1, by omega⟩
  rw [chars, List.cons_append, List.append_assoc]
  cases members with
  | nil =>
    rw [value?, skipBlank_cons (by decide)]
    rfl
  | cons m ms =>
    have hm := members?_chars (List.cons_ne_nil m ms) h (show _ ≤ fuel by omega) [] rest
    obtain ⟨cs, hc⟩ := memberChars_head m ms
    rw [hc, List.cons_append] at hm ⊢
    rw [value?_brace fuel (skipBlank_cons (by decide) _) (by decide)]
    exact hm

/-- A document is read from the front of every text that begins with its own. -/
theorem isReadBack (j : Json) (hw : j.Written) : j.IsReadBack := by
  induction j using Json.induction with
  | array elements ih =>
    have hall := (writtenAll_iff elements).mp hw
    exact isReadBack_array hall fun x hx => ih x hx (hall x hx)
  | object members ih =>
    have hall := (writtenMembers_iff members).mp hw
    exact isReadBack_object fun m hm => ih m hm (hall m hm)
  | null =>
    intro fuel rest hf _
    have hc : chars .null = ['n', 'u', 'l', 'l'] := by decide
    rw [hc] at hf ⊢
    obtain ⟨fuel, rfl⟩ := exists_fuel hf (by decide)
    rfl
  | bool value =>
    intro fuel rest hf _
    have htrue : chars (.bool true) = ['t', 'r', 'u', 'e'] := by decide
    have hfalse : chars (.bool false) = ['f', 'a', 'l', 's', 'e'] := by decide
    cases value with
    | true =>
      rw [htrue] at hf ⊢
      obtain ⟨fuel, rfl⟩ := exists_fuel hf (by decide)
      rfl
    | false =>
      rw [hfalse] at hf ⊢
      obtain ⟨fuel, rfl⟩ := exists_fuel hf (by decide)
      rfl
  | number literal =>
    intro fuel rest hf hr
    obtain ⟨c, more, hl, hc⟩ := IsNumber.head hw
    have hn := number?_append hw hr
    rw [String.ofList_toList] at hn
    rw [chars] at hf ⊢
    obtain ⟨fuel, rfl⟩ := exists_fuel hf (by simp [hl])
    rw [hl, List.cons_append, value?_number hc, ← List.cons_append, ← hl, hn]
  | string text =>
    intro fuel rest hf _
    obtain ⟨cs, hq, hl⟩ := literal?_quoted text rest
    obtain ⟨fuel, rfl⟩ := exists_fuel hf (quoted_ne_nil text)
    rw [chars, hq, value?, skipBlank_cons (by decide)]
    show (literal? cs).map _ = _
    rw [hl]
    rfl

/-- A document is read back from its compact text. -/
theorem parse?_render {j : Json} (h : j.Written) : parse? j.render = some j := by
  have hv := isReadBack j h (2 * j.chars.length + 2) [] (by omega) (follows_nil _)
  rw [List.append_nil] at hv
  unfold parse? render
  rw [String.toList_ofList]
  dsimp only
  rw [hv]
  rfl

end GemLink.Json
