import GemLink.Proofs.Session.Operations

/-!
Calls of the host that write a variable. A write is refused because a check of its variable fails,
because the value does not fit, or because there is no connection (`Session.Refuses`), and then the
host is told of the checks and nothing else changes (`Session.write_of_refuses`). A write that is
not refused passes all checks (`Session.refuses_or_accepts`), and is sent or waits behind the others
(`Session.write_of_accepts`).

What other modules need to know of a write are the cases of `Called` (`Session.called_write`), and
those of `Written` where the answer does not matter (`Session.written_write`).
-/

namespace GemLink

/-- The checks of the variable that is written, in order. -/
inductive WriteCheck where
  /-- The host may write a variable of that name. -/
  | writable
  /-- It is an equipment constant. -/
  | constant
  /-- It has an identifier. -/
  | identified
  deriving DecidableEq, Repr

namespace WriteCheck

/-- All checks, in order. -/
def all : List WriteCheck := [.writable, .constant, .identified]

/-- The checks that come before another. -/
def earlier : WriteCheck → List WriteCheck
  | .writable => []
  | .constant => [.writable]
  | .identified => [.writable, .constant]

/-- Whether what a catalog has under a name passes a check. -/
def Passes (c : Catalog) (name : String) : WriteCheck → Prop
  | .writable => ∃ v, c.writable.get? name = some v
  | .constant => ∃ v, c.writable.get? name = some v ∧ v.kind = .equipmentConstant
  | .identified => ∃ v id, c.writable.get? name = some v ∧ v.numericId = some id

/-- The alert about a check that fails. -/
def key (name : String) : WriteCheck → AlertKey
  | .writable => .notWritable name
  | .constant => .notEquipmentConstant name
  | .identified => .noNumericId name

/-- The error of a check that fails. -/
def error (name : String) : WriteCheck → LinkError
  | .writable => .notWritable name
  | .constant => .notEquipmentConstant name
  | .identified => .missingNumericId name

/-- What the host is told of checks that are passed. -/
def cleared (name : String) (passed : List WriteCheck) : List Action :=
  passed.map fun check => .clear (check.key name)

theorem isAlert_of_mem_cleared {name : String} {passed : List WriteCheck} {a : Action}
    (h : a ∈ cleared name passed) : a.isAlert = true := by
  obtain ⟨check, -, rfl⟩ := List.mem_map.mp h
  rfl

end WriteCheck

namespace Session

/-- Why the write of a value is refused, and what the host is told of the checks. -/
inductive Refuses (s : Session) (name : String) (value : Value) : LinkError → List Action → Prop
  /-- A check fails after those before it have been passed. -/
  | check (failed : WriteCheck) (hp : ∀ check ∈ failed.earlier, check.Passes s.catalog name)
      (hf : ¬ failed.Passes s.catalog name) :
      Refuses s name value (failed.error name)
        (WriteCheck.cleared name failed.earlier ++ [.raise (failed.key name) none])
  /-- The value does not fit the format of the variable. -/
  | value (hp : ∀ check, WriteCheck.Passes s.catalog name check) (v : Variable)
      (hv : s.catalog.writable.get? name = some v) (hw : v.write? value = none) :
      Refuses s name value (.invalidWriteValue v.name v.format)
        (WriteCheck.cleared name WriteCheck.all)
  /-- There is no connection on which it could be sent. -/
  | link (hp : ∀ check, WriteCheck.Passes s.catalog name check) (w : PendingWrite)
      (hw : s.catalog.write? name value = some w) (hl : s.isConnected = false) :
      Refuses s name value .notConnected (WriteCheck.cleared name WriteCheck.all)

variable {s : Session} {name : String} {value : Value} {now : Nat} {e : LinkError}
  {notices : List Action}

/-- What passes all checks is an equipment constant with an identifier. -/
theorem exists_of_passes (h : ∀ check, WriteCheck.Passes s.catalog name check) :
    ∃ v id, s.catalog.writable.get? name = some v ∧ v.kind = .equipmentConstant ∧
      v.numericId = some id := by
  obtain ⟨v, hv, hk⟩ := h .constant
  obtain ⟨v', id, hv', hid⟩ := h .identified
  obtain rfl : v = v' := Option.some.inj (hv.symm.trans hv')
  exact ⟨v, id, hv, hk, hid⟩

theorem write?_of_get? {c : Catalog} {v : Variable} {id : UInt32}
    (hv : c.writable.get? name = some v) (hid : v.numericId = some id) :
    c.write? name value = (v.write? value).map fun item => ⟨name, id, item⟩ := by
  simp [Catalog.write?, hv, hid]

/-- A refused write only tells the host of the checks. -/
theorem write_of_refuses (now : Nat) (h : s.Refuses name value e notices) :
    s.write name value now = ({ s with outbox := s.outbox ++ notices }, .error e) := by
  cases h with
  | check failed hp hf =>
    cases failed with
    | writable =>
      have hnone : s.catalog.writable.get? name = none := by
        simpa [WriteCheck.Passes, Option.eq_none_iff_forall_ne_some] using hf
      simp [write, hnone, raise, emit, WriteCheck.error, WriteCheck.key, WriteCheck.cleared,
        WriteCheck.earlier]
    | constant =>
      obtain ⟨v, hv⟩ := hp .writable (by decide)
      have hk : v.kind ≠ .equipmentConstant := fun hk => hf ⟨v, hv, hk⟩
      simp [write, hv, hk, raise, clear, emit, WriteCheck.error, WriteCheck.key,
        WriteCheck.cleared, WriteCheck.earlier]
    | identified =>
      obtain ⟨v, hv, hk⟩ := hp .constant (by decide)
      have hid : v.numericId = none :=
        Option.eq_none_iff_forall_ne_some.mpr fun id hid => hf ⟨v, id, hv, hid⟩
      simp [write, hv, hk, hid, raise, clear, emit, WriteCheck.error, WriteCheck.key,
        WriteCheck.cleared, WriteCheck.earlier]
  | value hp v hv hw =>
    obtain ⟨v', id, hv', hk, hid⟩ := exists_of_passes hp
    obtain rfl : v = v' := Option.some.inj (hv.symm.trans hv')
    simp [write, hv, hk, hid, hw, clear, emit, WriteCheck.key, WriteCheck.cleared, WriteCheck.all]
  | link hp w hw hl =>
    obtain ⟨v, id, hv, hk, hid⟩ := exists_of_passes hp
    rw [write?_of_get? hv hid] at hw
    obtain ⟨item, hitem, -⟩ := Option.map_eq_some_iff.mp hw
    have hl' : (s.connection.link == .connected) = false := hl
    simp [write, hv, hk, hid, hitem, hl', isConnected, clear, emit, WriteCheck.key,
      WriteCheck.cleared, WriteCheck.all]

/-- A write that passes all checks, fits and finds a connection is sent if nothing is open, and
waits behind the others if something is. -/
theorem write_of_accepts (now : Nat) (hp : ∀ check, WriteCheck.Passes s.catalog name check)
    {w : PendingWrite} (hw : s.catalog.write? name value = some w) (hl : s.isConnected = true) :
    let t := { s with outbox := s.outbox ++ WriteCheck.cleared name WriteCheck.all }
    s.write name value now =
      (if s.state = .idle then t.sendWrite w now
        else { t with pendingWrites := s.pendingWrites ++ [w] }, .ok ()) := by
  obtain ⟨v, id, hv, hk, hid⟩ := exists_of_passes hp
  rw [write?_of_get? hv hid] at hw
  obtain ⟨item, hitem, rfl⟩ := Option.map_eq_some_iff.mp hw
  have hl' : (s.connection.link == .connected) = true := hl
  by_cases hi : s.state = .idle
  · simp [write, hv, hk, hid, hitem, hl', hi, isConnected, CommState.isIdle, clear, emit,
      WriteCheck.key, WriteCheck.cleared, WriteCheck.all]
  · simp [write, hv, hk, hid, hitem, hl', hi, isConnected, CommState.isIdle, clear, emit,
      WriteCheck.key, WriteCheck.cleared, WriteCheck.all]

/-- What is not refused is accepted. -/
theorem refuses_or_accepts (s : Session) (name : String) (value : Value) :
    (∃ e notices, s.Refuses name value e notices) ∨
      (∀ check, WriteCheck.Passes s.catalog name check) ∧
        (∃ w, s.catalog.write? name value = some w) ∧ s.isConnected = true := by
  by_cases hwritable : WriteCheck.writable.Passes s.catalog name
  · by_cases hconstant : WriteCheck.constant.Passes s.catalog name
    · by_cases hidentified : WriteCheck.identified.Passes s.catalog name
      · have hp : ∀ check, WriteCheck.Passes s.catalog name check := by
          intro check
          cases check <;> assumption
        obtain ⟨v, id, hv, -, hid⟩ := exists_of_passes hp
        cases hfits : v.write? value with
        | none => exact .inl ⟨_, _, .value hp v hv hfits⟩
        | some item =>
          have hw : s.catalog.write? name value = some ⟨name, id, item⟩ := by
            rw [write?_of_get? hv hid, hfits, Option.map_some]
          cases hl : s.isConnected with
          | false => exact .inl ⟨_, _, .link hp _ hw hl⟩
          | true => exact .inr ⟨hp, ⟨_, hw⟩, rfl⟩
      · exact .inl ⟨_, _, .check .identified (by simp [WriteCheck.earlier, *]) hidentified⟩
    · exact .inl ⟨_, _, .check .constant (by simp [WriteCheck.earlier, *]) hconstant⟩
  · exact .inl ⟨_, _, .check .writable (by simp [WriteCheck.earlier]) hwritable⟩

/-- A write to an equipment constant with an identifier is refused because of its value if there is
no item for it, whatever else is the case. -/
theorem write_invalid_iff {v : Variable} {id : UInt32} (hv : s.catalog.writable.get? name = some v)
    (hk : v.kind = .equipmentConstant) (hid : v.numericId = some id) :
    (s.write name value now).2 = .error (.invalidWriteValue v.name v.format) ↔
      v.write? value = none := by
  have hp : ∀ check, WriteCheck.Passes s.catalog name check := by
    intro check
    cases check with
    | writable => exact ⟨v, hv⟩
    | constant => exact ⟨v, hv, hk⟩
    | identified => exact ⟨v, id, hv, hid⟩
  cases hfits : v.write? value with
  | none => simp [write_of_refuses now (.value hp v hv hfits)]
  | some item =>
    have hw : s.catalog.write? name value = some ⟨name, id, item⟩ := by
      rw [write?_of_get? hv hid, hfits, Option.map_some]
    cases hl : s.isConnected with
    | false => simp [write_of_refuses now (.link hp _ hw hl)]
    | true => simp [write_of_accepts now hp hw hl]

/-! ## The cases of a write -/

/-- What a write does: alerts are raised and cleared, and one that passes all checks is sent or
waits for its turn. -/
inductive Written (s : Session) (now : Nat) : Session → Prop
  | refused (t : Session) (ht : News s t) : Written s now t
  | sent (t : Session) (ht : News s t) (hc : s.isConnected = true) (hi : s.state = .idle)
      (w : PendingWrite) : Written s now (t.sendWrite w now)
  | queued (t : Session) (ht : News s t) (hc : s.isConnected = true) (hi : s.state ≠ .idle)
      (w : PendingWrite) : Written s now { t with pendingWrites := t.pendingWrites ++ [w] }

/-- What a write does and answers: a call that is not refused asks for a write, which is sent if
nothing is open and waits for its turn otherwise. -/
inductive Called (s : Session) (name : String) (value : Value) (now : Nat) :
    Session × Except LinkError Unit → Prop
  | refused (t : Session) (ht : Alerted s t) (e : LinkError) :
      Called s name value now (t, .error e)
  | sent (t : Session) (ht : Alerted s t) (hc : s.isConnected = true) (hi : s.state = .idle)
      (w : PendingWrite) (hw : s.catalog.write? name value = some w) :
      Called s name value now (t.sendWrite w now, .ok ())
  | queued (t : Session) (ht : Alerted s t) (hc : s.isConnected = true) (hi : s.state ≠ .idle)
      (w : PendingWrite) (hw : s.catalog.write? name value = some w) :
      Called s name value now ({ t with pendingWrites := t.pendingWrites ++ [w] }, .ok ())

theorem Refuses.isAlert (h : s.Refuses name value e notices) {a : Action} (ha : a ∈ notices) :
    a.isAlert = true := by
  cases h with
  | check failed _ _ =>
    rcases List.mem_append.mp ha with hc | hr
    · exact WriteCheck.isAlert_of_mem_cleared hc
    · rw [List.mem_singleton.mp hr]
      rfl
  | value _ _ _ _ => exact WriteCheck.isAlert_of_mem_cleared ha
  | link _ _ _ _ => exact WriteCheck.isAlert_of_mem_cleared ha

theorem called_write (s : Session) (name : String) (value : Value) (now : Nat) :
    Called s name value now (s.write name value now) := by
  rcases refuses_or_accepts s name value with ⟨e, notices, h⟩ | ⟨hp, ⟨w, hw⟩, hl⟩
  · rw [write_of_refuses now h]
    exact .refused _ ⟨notices, rfl, fun _ => h.isAlert⟩ e
  · have ht : Alerted s
        { s with outbox := s.outbox ++ WriteCheck.cleared name WriteCheck.all } :=
      ⟨_, rfl, fun _ => WriteCheck.isAlert_of_mem_cleared⟩
    rw [write_of_accepts now hp hw hl]
    by_cases hi : s.state = .idle
    · rw [if_pos hi]
      exact .sent _ ht hl hi w hw
    · rw [if_neg hi]
      exact .queued _ ht hl hi w hw

theorem written_write (s : Session) (name : String) (value : Value) (now : Nat) :
    Written s now (s.write name value now).1 := by
  have h := called_write s name value now
  generalize s.write name value now = r at h
  cases h with
  | refused _ ht => exact .refused _ ht.news
  | sent _ ht hc hi w => exact .sent _ ht.news hc hi w
  | queued _ ht hc hi w => exact .queued _ ht.news hc hi w

end Session

end GemLink
