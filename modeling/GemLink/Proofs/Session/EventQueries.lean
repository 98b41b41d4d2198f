import GemLink.Proofs.Item.Progress
import GemLink.Proofs.Session.EventOutcomes

/-!
How often an event message is asked for something until the values of its report are found. What is
asked of it is written down as a script, in which each answer decides on the next query, and the
script finds what the message says (`Inbound.said?_eq_run?`). A script is a loop that ends at its
first failure. So it has at most one successful query for each two bytes of the message, whatever
numbers of reports and of values are announced (`Session.eventReport?_queries`).
-/

namespace GemLink

namespace Cursor

/-- What is asked of a cursor, one query after the other: nothing more, or a query and what follows
each answer to it. -/
inductive Script (α : Type) where
  | done (result : Cursor → Option α)
  | ask (query : Query) (goOn : query.Answer → Script α)

namespace Script

variable {α : Type}

/-- A script as a loop, whose states are what remains of it. -/
def loop : Loop (Script α)
  | .done _ => none
  | .ask query goOn => some ⟨query, goOn⟩

/-- What a script results in; there is no result when a query fails. -/
def run? : Script α → Cursor → Option α
  | .done result, c => result c
  | .ask query goOn, c =>
    match c.ask query with
    | (some answer, d) => (goOn answer).run? d
    | (none, _) => none

theorem run?_listHeader (goOn : Nat → Script α) (c : Cursor) :
    (Script.ask .listHeader goOn).run? c =
      c.listHeader?.bind fun found => (goOn found.1).run? found.2 := by
  rw [run?, Cursor.ask]
  cases c.listHeader? <;> rfl

theorem run?_identifier (goOn : UInt32 → Script α) (c : Cursor) :
    (Script.ask .identifier goOn).run? c =
      c.identifier.1.bind fun id => (goOn id).run? c.identifier.2 := by
  rw [run?, Cursor.ask]
  rcases c.identifier with ⟨_ | id, d⟩ <;> rfl

/-! ## Reports -/

/-- Asks for `count` items and then goes on. -/
def passing (goOn : Script α) : Nat → Script α
  | 0 => goOn
  | count + 1 => .ask .item fun _ => passing goOn count

theorem run?_passing (goOn : Script α) (count : Nat) (c : Cursor) :
    (passing goOn count).run? c = (skipItems? count c).bind goOn.run? := by
  induction count generalizing c with
  | zero => rfl
  | succ count ih =>
    rw [passing, run?, skipItems?, Cursor.ask]
    rcases c.item with ⟨_ | item, d⟩
    · rfl
    · exact ih d

/-- Asks for the front of a report and goes on by its identifier and the number of its values. -/
def reportFront (goOn : UInt32 → Nat → Script α) : Script α :=
  .ask .listHeader fun arity =>
    if arity = 2 then .ask .identifier fun id => .ask .listHeader (goOn id) else .done fun _ => none

theorem run?_reportFront (goOn : UInt32 → Nat → Script α) (c : Cursor) :
    (reportFront goOn).run? c =
      c.reportHeader?.bind fun front => (goOn front.1 front.2.1).run? front.2.2 := by
  unfold reportFront reportHeader?
  rw [run?_listHeader]
  rcases c.listHeader? with _ | ⟨arity, d⟩
  · rfl
  · by_cases ha : arity = 2
    · subst ha
      simp only [Option.bind_some, if_pos, run?_identifier]
      rcases d.identifier with ⟨_ | id, e⟩
      · rfl
      · dsimp only [Option.bind_some]
        rw [run?_listHeader, Option.bind_map]
        rfl
    · simp [ha, run?]

/-- Asks for reports until one bears the given number. -/
def seeking (id : UInt32) (size : Nat) (say : ReportSearch → Option α) : Nat → Script α
  | 0 => .done fun _ => say .absent
  | count + 1 => reportFront fun other values =>
    if other = id then .done fun c => say (if values = size then .found c else .malformed)
    else passing (seeking id size say count) values

/-- A script finds the report that the search finds. -/
theorem run?_seeking {id : UInt32} {size : Nat} (say : ReportSearch → Option α)
    (hs : say .malformed = none) (count : Nat) (c : Cursor) :
    (seeking id size say count).run? c = say (c.findReport id size count) := by
  induction count generalizing c with
  | zero => rfl
  | succ count ih =>
    rw [seeking, run?_reportFront, findReport]
    rcases c.reportHeader? with _ | ⟨other, values, d⟩
    · exact hs.symm
    · dsimp only [Option.bind_some]
      by_cases ho : other = id
      · rw [if_pos ho, if_pos ho]
        rfl
      · rw [if_neg ho, if_neg ho, run?_passing]
        cases d.skipItems? values with
        | none => exact hs.symm
        | some e => exact ih e

/-! ## Events -/

/-- Asks for the front of an event message and goes on by the event. -/
def eventFront (goOn : UInt32 → Script α) : Script α :=
  .ask .listHeader fun arity =>
    if arity = 3 then .ask .identifier fun _ => .ask .identifier goOn else .done fun _ => none

theorem run?_eventFront (goOn : UInt32 → Script α) (m : Inbound) :
    (eventFront goOn).run? (.ofBytes m.body) =
      m.eventHeader?.bind fun front => (goOn front.1).run? front.2 := by
  unfold eventFront Inbound.eventHeader?
  rw [run?_listHeader]
  rcases (ofBytes m.body).listHeader? with _ | ⟨arity, c⟩
  · rfl
  · by_cases ha : arity = 3
    · subst ha
      simp only [Option.bind_some, if_pos, run?_identifier]
      rcases c.identifier with ⟨_ | dataId, d⟩
      · rfl
      · dsimp only [Option.bind_some]
        rcases d.identifier with ⟨_ | eventId, e⟩ <;> rfl
    · simp [ha, run?]

/-- Asks for what an event message says to a host that knows the events of a catalog. -/
def event (c : Catalog) : Script (Option (EventGroup × Cursor)) :=
  eventFront fun eventId =>
    match c.group? eventId with
    | none => .done fun _ => some none
    | some group =>
      .ask .listHeader (seeking eventId group.members.length (·.said? group))

end Script

end Cursor

open Cursor (Script)

theorem Inbound.said?_eq_run? (m : Inbound) (c : Catalog) :
    m.said? c = (Script.event c).run? (.ofBytes m.body) := by
  unfold said? Script.event
  rw [Script.run?_eventFront]
  rcases m.eventHeader? with _ | ⟨eventId, d⟩
  · rfl
  · dsimp only [Option.bind_some]
    cases c.group? eventId with
    | none => rfl
    | some group =>
      dsimp only
      rw [Script.run?_listHeader]
      rcases d.listHeader? with _ | ⟨count, e⟩
      · rfl
      · exact (Script.run?_seeking (·.said? group) rfl count e).symm

/-- An event message is handled by what its script results in, and the script has at most one
successful query for each two bytes of the message. The values that it finds are not among them:
each is read once, whether those before it could be read or not. -/
theorem Session.eventReport?_queries (s : Session) (m : Inbound) :
    let script := Script.event s.catalog
    let c := Cursor.ofBytes m.body
    s.eventReport? m = (script.run? c).map (s.told m) ∧
      2 * Script.loop.successes script c ≤ m.body.length := by
  intro script c
  refine ⟨?_, Script.loop.two_mul_successes_le script c⟩
  rw [eventReport?_eq, Inbound.said?_eq_run?]

end GemLink
