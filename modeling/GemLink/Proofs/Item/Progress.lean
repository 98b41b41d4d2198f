import GemLink.Proofs.Item.Reading

/-!
Progress through a body. Whatever a cursor is asked for, it stays within the body and never goes
back (`advances_after`). An answer is read off exactly the bytes that are passed (`ask_eq_some_iff`),
and these are at least two, the format byte and a length byte. An item that cannot be decoded is
passed over, up to the end if its header does not tell how far it reaches (`advances_item`). So a
loop that ends at the first failure succeeds at most once for each two bytes, whatever the lists
announce (`Loop.two_mul_successes_le`).
-/

namespace GemLink

universe u

/-! ## The fewest bytes of an answer -/

namespace Item

variable {item : Item} {id : UInt32} {count : Nat} {bs : Bytes}

theorem IsLength.two_le_header {length : Bytes} {n : Nat} (h : IsLength length n)
    (format : ItemFormat) : 2 ≤ (headerOf format length).length := by
  have hpos := h.pos
  rw [headerOf, List.length_cons]
  omega

theorem IsListHeader.two_le (h : IsListHeader count bs) : 2 ≤ bs.length := by
  obtain ⟨length, hl, rfl⟩ := h
  exact hl.two_le_header .list

theorem IsWritten.two_le (h : item.IsWritten bs) : 2 ≤ bs.length := by
  obtain ⟨he, -⟩ := h
  cases he with
  | flat hl _ _ =>
    rw [List.length_append]
    exact Nat.le_add_right_of_le (hl.two_le_header _)
  | list hl _ _ =>
    rw [List.length_append]
    exact Nat.le_add_right_of_le (hl.two_le_header _)

theorem IsIdentifier.two_le (h : IsIdentifier id bs) : 2 ≤ bs.length := by
  obtain ⟨item, -, hw⟩ := h
  exact hw.two_le

end Item

namespace Cursor

/-! ## Queries -/

/-- What a cursor can be asked for. -/
inductive Query where
  /-- The number of items of a list, off its header. -/
  | listHeader
  /-- A whole item. -/
  | item
  /-- An item that is an identifier. -/
  | identifier

/-- What is answered to a query. -/
abbrev Query.Answer : Query → Type
  | .listHeader => Nat
  | .item => Item
  | .identifier => UInt32

/-- Asks a cursor: the answer, if there is one, and the place where the cursor then stands. -/
def ask (c : Cursor) : (query : Query) → Option query.Answer × Cursor
  | .listHeader =>
    match c.listHeader? with
    | some (count, d) => (some count, d)
    | none => (none, c)
  | .item => c.item
  | .identifier => c.identifier

/-- The place where a cursor stands after queries that may succeed or fail. -/
def after (c : Cursor) (queries : List Query) : Cursor :=
  queries.foldl (fun c query => (c.ask query).2) c

/-- Whether bytes are what an answer is read from. -/
def Query.IsAnswer : (query : Query) → query.Answer → Bytes → Prop
  | .listHeader, count => Item.IsListHeader count
  | .item, answer => Item.IsWritten answer
  | .identifier, id => Item.IsIdentifier id

theorem Query.IsAnswer.two_le {query : Query} {answer : query.Answer} {bs : Bytes}
    (h : query.IsAnswer answer bs) : 2 ≤ bs.length := by
  cases query with
  | listHeader => exact Item.IsListHeader.two_le h
  | item => exact Item.IsWritten.two_le h
  | identifier => exact Item.IsIdentifier.two_le h

variable {c d e : Cursor} {bs : Bytes} {m n : Nat}

/-- A query is answered exactly where the bytes ahead begin with an answer to it, and the cursor
then stands behind them. -/
theorem ask_eq_some_iff {query : Query} {answer : query.Answer} :
    c.ask query = (some answer, d) ↔ Passes (query.IsAnswer answer) c d := by
  cases query with
  | listHeader =>
    refine Iff.trans ?_ listHeader?_eq_some_iff
    unfold ask
    cases c.listHeader? with
    | none => simp
    | some found => simp [Prod.ext_iff]
  | item => exact item_eq_some_iff
  | identifier => exact identifier_eq_some_iff

/-! ## Advancing -/

/-- Whether a cursor goes on from one place to another by at least `n` bytes. -/
def Advances (n : Nat) : Cursor → Cursor → Prop :=
  Passes fun bs => n ≤ bs.length

theorem Passes.advances {P : Bytes → Prop} (h : Passes P c d) (hn : ∀ bs, P bs → n ≤ bs.length) :
    Advances n c d := by
  obtain ⟨ht, bs, hb, hp⟩ := h
  exact ⟨ht, bs, hb, hn bs hp⟩

namespace Advances

theorem refl (c : Cursor) : Advances 0 c c :=
  ⟨rfl, [], rfl, Nat.zero_le _⟩

theorem mono (h : Advances n c d) (hm : m ≤ n) : Advances m c d :=
  Passes.advances h fun _ => Nat.le_trans hm

theorem trans (h : Advances m c d) (h' : Advances n d e) : Advances (m + n) c e := by
  refine Passes.advances (passes_inTurn_iff.mpr ⟨d, h, h'⟩) ?_
  rintro _ ⟨x, y, rfl, hx, hy⟩
  rw [List.length_append]
  exact Nat.add_le_add hx hy

theorem length_le (h : Advances n c d) : n + d.rest.length ≤ c.rest.length := by
  obtain ⟨-, bs, hb, hn⟩ := h
  rw [hb, List.length_append]
  exact Nat.add_le_add_right hn _

/-- What is ahead of a place in a body is the body without what has been read. -/
theorem rest_eq (h : Advances 0 (ofBytes bs) c) : c.rest = bs.drop c.position := by
  obtain ⟨ht, front, hb, -⟩ := h
  have hb' : bs = front ++ c.rest := hb
  have htotal : c.total = front.length + c.rest.length := by
    rw [ht, ← List.length_append, ← hb']
    rfl
  have hposition : c.position = front.length := by
    rw [position, htotal, Nat.add_sub_cancel]
  rw [hposition, hb', List.drop_left]

theorem position_add_length (h : Advances 0 (ofBytes bs) c) :
    c.position + c.rest.length = bs.length := by
  have htotal : c.total = bs.length := h.1
  have hle : 0 + c.rest.length ≤ bs.length := h.length_le
  rw [position, htotal]
  omega

/-- Advancing is seen from the position. -/
theorem position_le (hc : Advances 0 (ofBytes bs) c) (h : Advances n c d) :
    c.position + n ≤ d.position := by
  have hd : Advances 0 (ofBytes bs) d := (hc.trans h).mono (Nat.zero_le _)
  have hlength := h.length_le
  have hcp := hc.position_add_length
  have hdp := hd.position_add_length
  omega

end Advances

/-! ## Every query goes on -/

theorem advances_of_ask {query : Query} {answer : query.Answer}
    (h : c.ask query = (some answer, d)) : Advances 2 c d :=
  (ask_eq_some_iff.mp h).advances fun _ => Query.IsAnswer.two_le

theorem eq_of_ask_listHeader (h : c.ask .listHeader = (none, d)) : d = c := by
  unfold ask at h
  cases hl : c.listHeader? with
  | none =>
    rw [hl] at h
    exact (congrArg Prod.snd h).symm
  | some found =>
    rw [hl] at h
    cases h

/-- What cannot be decoded is passed over: at least a byte of it, if there is one. -/
theorem exists_append_skip (bs : Bytes) :
    ∃ front, bs = front ++ skip bs ∧ min 1 bs.length ≤ front.length := by
  have hall : ∃ front, bs = front ++ [] ∧ min 1 bs.length ≤ front.length :=
    ⟨bs, (List.append_nil bs).symm, Nat.min_le_right _ _⟩
  unfold skip
  split
  · exact hall
  · next format n rest _ hh =>
    split
    · next payload behind hs =>
      -- the header alone is two bytes, so that an empty payload does not matter
      obtain ⟨length, hl, hb⟩ := Item.readHeader?_eq_some_iff.mp hh
      obtain ⟨hr, -⟩ := Bytes.eq_append_of_split? hs
      have htwo := hl.two_le_header format
      refine ⟨Item.headerOf format length ++ payload, ?_, ?_⟩
      · rw [hb, hr, List.append_assoc]
      · rw [List.length_append]
        omega
    · exact hall
  · exact hall

theorem advances_item (c : Cursor) : Advances (min 1 c.rest.length) c c.item.2 := by
  unfold Cursor.item
  split
  · next item rest hr =>
    obtain ⟨front, hb, hw⟩ := Item.read?_eq_some_iff.mp hr
    exact ⟨rfl, front, hb, Nat.le_trans (Nat.min_le_left _ _) (Nat.le_of_succ_le hw.two_le)⟩
  · obtain ⟨front, hb, hf⟩ := exists_append_skip c.rest
    exact ⟨rfl, front, hb, hf⟩

theorem advances_ask (c : Cursor) (query : Query) : Advances 0 c (c.ask query).2 := by
  cases query with
  | listHeader =>
    cases h : c.listHeader? with
    | none =>
      rw [ask, h]
      exact .refl c
    | some found =>
      have hp := listHeader?_eq_some_iff.mp h
      rw [ask, h]
      exact hp.advances fun _ _ => Nat.zero_le _
  | item => exact (advances_item c).mono (Nat.zero_le _)
  | identifier => exact (advances_item c).mono (Nat.zero_le _)

theorem advances_after (c : Cursor) (queries : List Query) : Advances 0 c (c.after queries) := by
  induction queries generalizing c with
  | nil => exact .refl c
  | cons query rest ih => exact (advances_ask c query).trans (ih _)

/-! ## Loops -/

/-- A loop, by what it does in each of its states: it ends, or it asks and goes on in a state that
depends on the answer. -/
def Loop (σ : Type u) : Type u :=
  σ → Option ((query : Query) × (query.Answer → σ))

/-- The number of queries that succeed in a loop before it ends or one fails. -/
def Loop.successes {σ : Type u} (loop : Loop σ) (s : σ) (c : Cursor) : Nat :=
  match loop s with
  | none => 0
  | some ⟨query, goOn⟩ =>
    match h : c.ask query with
    | (some answer, d) => loop.successes (goOn answer) d + 1
    | (none, _) => 0
termination_by c.rest.length
decreasing_by
  have hlength := (advances_of_ask h).length_le
  omega

variable {σ : Type u} (loop : Loop σ) (s : σ)

theorem Loop.two_mul_successes_le (c : Cursor) : 2 * loop.successes s c ≤ c.rest.length := by
  fun_induction Loop.successes loop s c with
  | case1 => exact Nat.zero_le _
  | case2 s c query goOn _ answer d h ih =>
    have hlength := (advances_of_ask h).length_le
    omega
  | case3 => exact Nat.zero_le _

/-- After any queries to the beginning of a body a cursor stands within the body, and from there it
goes only onward. A query that succeeds advances it by two bytes or more, the header of a list that
cannot be read leaves it where it is, and an item that cannot be read is passed over, if anything is
left. A loop that ends at the first failure has at most half as many successes as bytes are left. -/
theorem reads_within_body (bs : Bytes) (queries : List Query) :
    let c := (ofBytes bs).after queries
    (c.position ≤ bs.length ∧ c.rest = bs.drop c.position) ∧
      (∀ more, c.position ≤ (c.after more).position) ∧
      (∀ query answer d, c.ask query = (some answer, d) → c.position + 2 ≤ d.position) ∧
      (∀ d, c.ask .listHeader = (none, d) → d = c) ∧
      (∀ d, c.ask .item = (none, d) → c.position < bs.length → c.position < d.position) ∧
      c.position + 2 * loop.successes s c ≤ bs.length := by
  intro c
  have hc : Advances 0 (ofBytes bs) c := advances_after _ queries
  have hposition := hc.position_add_length
  refine ⟨⟨?_, hc.rest_eq⟩, fun more => ?_, fun query answer d h => ?_,
    fun d h => eq_of_ask_listHeader h, fun d h hlt => ?_, ?_⟩
  · omega
  · exact hc.position_le (advances_after c more)
  · exact hc.position_le (advances_of_ask h)
  · have hd : c.item.2 = d := congrArg Prod.snd h
    have hadvance := hc.position_le (hd ▸ advances_item c)
    omega
  · have hloop := loop.two_mul_successes_le s c
    omega

/-- Reads the header of a list and then as many items as it announces. -/
def announced : Loop (Option Nat)
  | none => some ⟨.listHeader, some⟩
  | some 0 => none
  | some (count + 1) => some ⟨.item, fun _ => some count⟩

/-- A list that announces as many items as a header can. There is one, and behind it a number with a
byte too few and a text that breaks off. -/
def vastList : Bytes :=
  [0x03, 0xFF, 0xFF, 0xFF, 0xA5, 1, 9, 0x69, 3, 0, 1, 2, 0x41, 4, 79]

theorem reads_within_body_vastList :
    let b := ofBytes vastList
    let c := b.after [.listHeader, .item]
    let onward : Nat → Cursor := fun n => ⟨15, vastList.drop n⟩
    b.ask .listHeader = (some 16777215, onward 4) ∧ b.position + 2 ≤ (onward 4).position ∧
      c.ask .listHeader = (none, onward 7) ∧ onward 7 = c ∧
      c.ask .item = (none, onward 12) ∧ c.position < vastList.length ∧
      c.position < (onward 12).position ∧ announced.successes none b = 2 ∧
      b.position + 2 * announced.successes none b ≤ 15 := by
  intro b c onward
  have hcount : b.ask .listHeader = (some 16777215, onward 4) := by rfl
  have hheader : c.ask .listHeader = (none, onward 7) := by rfl
  have hitem : c.ask .item = (none, onward 12) := by rfl
  have hlt : c.position < vastList.length := by decide
  have hsuccesses : announced.successes none b = 2 := by cbv
  obtain ⟨-, -, hadvance, -, -, hloop⟩ := reads_within_body announced none vastList []
  obtain ⟨-, -, -, hstay, hpass, -⟩ :=
    reads_within_body announced none vastList [.listHeader, .item]
  exact ⟨hcount, hadvance _ _ _ hcount, hheader, hstay _ hheader, hitem, hlt, hpass _ hitem hlt,
    hsuccesses, hloop⟩

end Cursor

end GemLink
