import GemLink.Proofs.Item.Reading
import GemLink.Proofs.Session.Operations

/-!
What becomes of the items that are received for a row of variables. Each variable has one outcome:
its value is handed to the host, or an alert names it and a failure is counted. Handing a row to the
host appends these outcomes in the order of the variables (`publishRow_eq`), and so does refusing a
row as a whole (`foldl_dataFailure_eq`).
-/

namespace GemLink

namespace Counters

theorem add_zero (c : Counters) (counter : Counter) : c.add counter 0 = c := by
  cases counter <;> rfl

theorem add_add (c : Counters) (counter : Counter) (a b : Nat) :
    (c.add counter a).add counter b = c.add counter (a + b) := by
  cases counter <;> simp [add, Nat.add_assoc]

end Counters

/-- What becomes of the item that was received for a variable, if one was: its value is handed to
the host, or an alert names the variable when there is no value. -/
def Variable.outcome (v : Variable) (item : Option Item) : Action :=
  match item.bind fun item => v.read? item.datum with
  | some value => .publish v value true
  | none => .raise .failedToGetData (some v.name)

/-- What becomes of a row of variables, of which each has the item of its number. -/
def outcomes (vs : List Variable) (element? : Nat → Option Item) : List Action :=
  vs.mapIdx fun i v => v.outcome (element? i)

/-- Whether an outcome is a failure. -/
def Action.isFailure : Action → Bool
  | .raise .. => true
  | _ => false

/-- The number of failures among outcomes. -/
def failures (outs : List Action) : Nat :=
  outs.countP Action.isFailure

theorem outcomes_cons (v : Variable) (vs : List Variable) (element? : Nat → Option Item) :
    outcomes (v :: vs) element? =
      v.outcome (element? 0) :: outcomes vs fun i => element? (i + 1) :=
  List.mapIdx_cons

theorem outcomes_congr {vs : List Variable} {f g : Nat → Option Item}
    (h : ∀ i < vs.length, f i = g i) : outcomes vs f = outcomes vs g := by
  refine List.ext_getElem (by simp [outcomes]) fun i hi _ => ?_
  simp only [outcomes, List.length_mapIdx, List.getElem_mapIdx] at hi ⊢
  rw [h i hi]

theorem failures_cons (a : Action) (outs : List Action) :
    failures (a :: outs) = failures [a] + failures outs := by
  unfold failures
  rw [← List.singleton_append, List.countP_append]

namespace Session

/-- A session in which outcomes have been appended and their failures counted. -/
def noting (s : Session) (outs : List Action) : Session :=
  { s with
    outbox := s.outbox ++ outs
    counters := s.counters.add .decodeFailures (failures outs) }

variable (s : Session)

theorem noting_nil : s.noting [] = s := by
  simp [noting, failures, Counters.add_zero]

theorem noting_cons (a : Action) (outs : List Action) :
    s.noting (a :: outs) = (s.noting [a]).noting outs := by
  unfold noting
  rw [failures_cons, ← Counters.add_add]
  simp

theorem publishItem_eq (v : Variable) (item : Option Item) :
    s.publishItem v item =
      (s.noting [v.outcome item], decide (failures [v.outcome item] = 0)) := by
  unfold publishItem Variable.outcome
  cases item.bind fun item => v.read? item.datum with
  | some value => simp [noting, failures, Action.isFailure, Counters.add_zero, emit]
  | none => simp [noting, failures, Action.isFailure, dataFailure, raise, emit, count]

/-- The first variable of a row gets its outcome, and then the others get theirs. -/
theorem publishRow_cons {count : Nat} {c d : Cursor} {v : Variable} {rest : List Variable}
    {item : Option Item} {outs : List Action}
    (hd : (if count = 0 then (none, c) else c.item) = (item, d))
    (h : (s.noting [v.outcome item]).publishRow (count - 1) d rest =
      ((s.noting [v.outcome item]).noting outs, decide (failures outs = 0))) :
    s.publishRow count c (v :: rest) = (s.noting (v.outcome item :: outs),
      decide (failures (v.outcome item :: outs) = 0)) := by
  have hall : decide (failures (v.outcome item :: outs) = 0) =
      (decide (failures [v.outcome item] = 0) && decide (failures outs = 0)) := by
    simp only [failures_cons (v.outcome item) outs, Nat.add_eq_zero_iff, Bool.decide_and]
  rw [publishRow, hd]
  dsimp only
  rw [publishItem_eq]
  dsimp only
  rw [h, ← noting_cons, hall]

/-- Each variable of a row gets its outcome, in order. -/
theorem publishRow_eq (count : Nat) (c : Cursor) (vs : List Variable) :
    let outs := outcomes vs fun i => if i < count then c.element? i else none
    s.publishRow count c vs = (s.noting outs, decide (failures outs = 0)) := by
  induction vs generalizing s count c with
  | nil =>
    intro outs
    exact congrArg₂ Prod.mk s.noting_nil.symm rfl
  | cons v rest ih =>
    intro outs
    cases count with
    | zero =>
      have houts : outs = v.outcome none :: outcomes rest fun _ => none := outcomes_cons _ _ _
      rw [houts]
      exact s.publishRow_cons rfl (ih _ 0 c)
    | succ count =>
      have houts : outs = v.outcome c.item.1 ::
          outcomes rest fun i => if i < count then c.item.2.element? i else none := by
        refine (outcomes_cons _ _ _).trans ?_
        simp only [Nat.succ_lt_succ_iff, Nat.zero_lt_succ, if_true]
        rfl
      rw [houts]
      exact s.publishRow_cons (if_neg (Nat.succ_ne_zero count)) (ih _ count c.item.2)

/-- The alert is cleared when the whole row could be handed over. -/
theorem publishRowAndClear_eq (count : Nat) (c : Cursor) (vs : List Variable) :
    let outs := outcomes vs fun i => if i < count then c.element? i else none
    s.publishRowAndClear count c vs = { s with
      outbox := s.outbox ++ outs ++ if failures outs = 0 then [.clear .failedToGetData] else []
      counters := s.counters.add .decodeFailures (failures outs) } := by
  intro outs
  unfold publishRowAndClear
  rw [publishRow_eq]
  simp only [decide_eq_true_eq]
  split
  · rfl
  · rw [List.append_nil]
    rfl

/-- A row that is refused as a whole fails for each variable. -/
theorem foldl_dataFailure_eq (vs : List Variable) :
    vs.foldl dataFailure s = { s with
      outbox := s.outbox ++ vs.map fun v => .raise .failedToGetData (some v.name)
      counters := s.counters.add .decodeFailures vs.length } := by
  induction vs generalizing s with
  | nil => simp [Counters.add_zero]
  | cons v rest ih =>
    rw [List.foldl_cons, ih, List.map_cons, List.length_cons, Nat.add_comm, ← Counters.add_add]
    simp [dataFailure, raise, emit, count]

end Session

end GemLink
