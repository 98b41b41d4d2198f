import GemLink.Machine.Json

/-!
What a record may look like. `Edited` relates the fields of a record to the members of an object in
which fields that hold their default may be missing and members of unknown names may stand anywhere.
Whichever of them is read, each field is there with what it holds, or is missing and holds its
default (`ofMembers?_edited`), so that its reader finds the same value (`required?_eq`,
`withDefault?_eq`).
-/

namespace GemLink.Record

/-- A field of a record. -/
structure Field where
  /-- Its name. -/
  name : String
  /-- The documents that stand for its value. -/
  holds : Json → Prop
  /-- Whether its value is its default, so that it need not be written. -/
  isDefault : Prop

/-- Whether the members of an object say what the fields of a record hold: in their order, perhaps
without those that hold their default, and perhaps with members whose names are not known. -/
inductive Edited (known : List String) : List Field → List (Option String × Json) → Prop
  | nil : Edited known [] []
  | keep {f : Field} {x : Json} {fields : List Field} {members : List (Option String × Json)}
    (h : f.holds x) (rest : Edited known fields members) :
    Edited known (f :: fields) ((some f.name, x) :: members)
  | leave {f : Field} {fields : List Field} {members : List (Option String × Json)}
    (h : f.isDefault) (rest : Edited known fields members) : Edited known (f :: fields) members
  | add {name : String} {x : Json} {fields : List Field} {members : List (Option String × Json)}
    (h : name ∉ known) (rest : Edited known fields members) :
    Edited known fields ((some name, x) :: members)

/-- Whether a record has a field with what it holds, or lacks it while it holds its default. -/
def Has (record : Record) (f : Field) : Prop :=
  (∃ x, f.holds x ∧ record.lookup f.name = some x) ∨ (f.isDefault ∧ record.lookup f.name = none)

theorem lookup_cons_of_ne {name other : String} {x : Json} {record : Record} (h : name ≠ other) :
    List.lookup name ((other, x) :: record) = record.lookup name := by
  rw [List.lookup_cons, beq_false_of_ne h]

theorem lookup_of_forall_ne {name : String} {record : Record}
    (h : ∀ field ∈ record, field.1 ≠ name) : record.lookup name = none := by
  rw [List.lookup_eq_none_iff]
  intro field hf
  exact bne_iff_ne.mpr (h field hf).symm

/-- What the members of an edited record are read as: every field is there or holds its default, and
there is nothing else. -/
theorem ofMembers?_edited {known : List String} {fields : List Field}
    {members : List (Option String × Json)} (h : Edited known fields members)
    (hk : ∀ f ∈ fields, f.name ∈ known) (hn : (fields.map Field.name).Nodup) :
    ∃ record, ofMembers? known members = some record ∧ (∀ f ∈ fields, record.Has f) ∧
      ∀ field ∈ record, field.1 ∈ fields.map Field.name := by
  induction h with
  | nil => exact ⟨[], rfl, nofun, nofun⟩
  | @keep f x fields members hx rest ih =>
    rw [List.forall_mem_cons] at hk
    rw [List.map_cons, List.nodup_cons] at hn
    obtain ⟨record, hr, hall, hnames⟩ := ih hk.2 hn.2
    have hne : ∀ field ∈ record, field.1 ≠ f.name := fun field hf he => hn.1 (he ▸ hnames field hf)
    refine ⟨(f.name, x) :: record, ?_, ?_, ?_⟩
    · have hany : (record.any fun field => field.1 == f.name) = false :=
        List.any_eq_false.mpr fun field hf => by simp [hne field hf]
      rw [ofMembers?, hr, Option.bind_eq_bind, Option.bind_some,
        if_pos (List.contains_iff_mem.mpr hk.1), hany]
      rfl
    · refine List.forall_mem_cons.mpr ⟨.inl ⟨x, hx, List.lookup_cons_self⟩, fun g hg => ?_⟩
      have hgf : g.name ≠ f.name := fun he => hn.1 (he ▸ List.mem_map_of_mem hg)
      unfold Has
      rw [lookup_cons_of_ne hgf]
      exact hall g hg
    · refine List.forall_mem_cons.mpr ⟨List.mem_cons_self .., fun field hf => ?_⟩
      exact List.mem_cons_of_mem _ (hnames field hf)
  | @leave f fields members hd rest ih =>
    rw [List.forall_mem_cons] at hk
    rw [List.map_cons, List.nodup_cons] at hn
    obtain ⟨record, hr, hall, hnames⟩ := ih hk.2 hn.2
    have hne : ∀ field ∈ record, field.1 ≠ f.name := fun field hf he => hn.1 (he ▸ hnames field hf)
    refine ⟨record, hr, ?_, fun field hf => List.mem_cons_of_mem _ (hnames field hf)⟩
    rw [List.forall_mem_cons]
    exact ⟨.inr ⟨hd, lookup_of_forall_ne hne⟩, hall⟩
  | @add name x fields members hu rest ih =>
    obtain ⟨record, hr, hall, hnames⟩ := ih hk hn
    refine ⟨record, ?_, hall, hnames⟩
    rw [ofMembers?, hr, Option.bind_eq_bind, Option.bind_some,
      if_neg (by rwa [List.contains_iff_mem])]

variable {α : Type} {record : Record} {f : Field} {read : Json → Option α} {a : α}

theorem required?_eq (h : record.Has f) (hd : ¬ f.isDefault)
    (hr : ∀ x, f.holds x → read x = some a) : record.required? f.name read = some a := by
  obtain ⟨x, hx, hl⟩ | ⟨hf, -⟩ := h
  · unfold required?
    rw [hl, Option.bind_some, hr x hx]
  · exact absurd hf hd

theorem withDefault?_eq {default : α} (h : record.Has f) (hd : f.isDefault → default = a)
    (hr : ∀ x, f.holds x → read x = some a) :
    record.withDefault? f.name default read = some a := by
  unfold withDefault?
  obtain ⟨x, hx, hl⟩ | ⟨hf, hl⟩ := h
  · rw [hl]
    exact hr x hx
  · rw [hl, hd hf]

/-! Most fields have one document that stands for their value. -/

theorem required?_of_eq {name : String} {x : Json} (h : record.Has ⟨name, (· = x), False⟩)
    (hr : read x = some a) : record.required? name read = some a :=
  required?_eq h id fun _ hx => hx ▸ hr

theorem withDefault?_of_eq {name : String} {x : Json} {default : α}
    (h : record.Has ⟨name, (· = x), a = default⟩) (hr : read x = some a) :
    record.withDefault? name default read = some a :=
  withDefault?_eq h Eq.symm fun _ hx => hx ▸ hr

end GemLink.Record
