import GemLink.Proofs.Session.Stops
import GemLink.Proofs.Session.Tally

/-!
The budget of attempts to connect. While a session is open its counter is one more than the number
of attempts that its timer has made since it was opened or communication was last established
(`Budgeted`), however many connections came up in between without getting that far. The attempt that
would be one too many is not made: the session says how often it has failed, and from then on it is
spent (`Spent`): nothing is armed and nothing attempts to connect any more
(`reconnects_within_budget`).
-/

namespace GemLink

/-- Whether an action attempts to connect. -/
def Action.isConnect : Action → Bool
  | .connect => true
  | _ => false

theorem Action.isConnect_of_isAttempt {a : Action} (h : a.isAttempt = false) :
    a.isConnect = false := by
  cases a <;> first | rfl | cases h

namespace Passage

/-- The number of attempts to connect that the timer for it makes at a passage. -/
def reconnects (p : Passage) : Nat :=
  match p.moment with
  | .expiry .reconnect => p.actions.countP Action.isConnect
  | _ => 0

/-- Whether a handshake is completed at a passage. -/
def completes (p : Passage) : Bool :=
  !p.before.handshakeComplete && p.after.handshakeComplete

/-- Whether the attempts to connect are counted from this passage on. -/
def renews (p : Passage) : Bool :=
  match p.moment with
  | .opened => true
  | _ => p.completes

theorem renews_of_ne {p : Passage} (h : p.moment ≠ .opened) : p.renews = p.completes := by
  unfold renews
  split
  · exact absurd (by assumption) h
  · rfl

end Passage

namespace Session

/-- The number of attempts to connect that the timer for it has made since the session was opened
or communication was last established. -/
def reconnectsSince (past : List Passage) : Nat :=
  past.foldl (fun n p => if p.renews then 0 else n + p.reconnects) 0

@[simp] theorem reconnectsSince_nil : reconnectsSince [] = 0 :=
  rfl

@[simp] theorem reconnectsSince_concat (past : List Passage) (p : Passage) :
    reconnectsSince (past ++ [p]) =
      if p.renews then 0 else reconnectsSince past + p.reconnects := by
  rw [reconnectsSince, List.foldl_append]
  rfl

variable {s t : Session} {now : Nat} {m : Moment} {past : List Passage}

theorem completes_advance (s : Session) (now : Nat) (m : Moment) :
    Passage.completes ⟨s, now, m⟩ =
      (!s.handshakeComplete && (s.advance now m).handshakeComplete) :=
  rfl

/-! ## Attempts -/

/-- The next attempt to connect is due at a moment. -/
def ReconnectDue (s : Session) (now : Nat) (m : Moment) : Prop :=
  m = .expiry .reconnect ∧ s.timers.isDue now .reconnect = true

/-- Nothing but the opening and its timer makes a session attempt to connect. -/
theorem Scores.quiet (h : s.Scores now m t) (ho : m ≠ .opened) (hr : ¬ s.ReconnectDue now m) :
    ∃ acts, t.outbox = s.outbox ++ acts ∧ ∀ a ∈ acts, a.isAttempt = false := by
  cases h with
  | kept h => exact h.quiet
  | overdue _ _ h => exact h.quiet
  | answered h | established _ h _ =>
    obtain ⟨acts, hout, ha⟩ := h.quiet
    refine ⟨.clear .noResponse :: acts, hout.trans (List.append_assoc _ _ _), ?_⟩
    rw [List.forall_mem_cons]
    exact ⟨rfl, ha⟩
  | reconnected hm hd _ => exact absurd ⟨hm, hd⟩ hr
  | launched hm _ => exact absurd hm ho

/-- The counter of attempts stays as it is or begins anew with a complete handshake. -/
theorem Scores.attempts (h : s.Scores now m t) (ho : m ≠ .opened) (hr : ¬ s.ReconnectDue now m) :
    (t.connection.attempts = s.connection.attempts ∧
        (t.handshakeComplete = true → s.handshakeComplete = true) ∧
        (t.connection.opened = true → s.connection.opened = true)) ∨
      t.connection.attempts = 1 ∧ s.handshakeComplete = false ∧
        (t.handshakeComplete = true ∨ t.connection.opened = false) := by
  cases h with
  | kept h => exact .inl ⟨h.attempts, h.complete, h.opened⟩
  | answered h => exact .inl ⟨h.attempts, h.complete, h.opened⟩
  | overdue _ _ h => exact .inl ⟨h.attempts, h.complete, h.opened⟩
  | established hs h ht => exact .inr ⟨h.attempts, hs, ht⟩
  | reconnected hm hd _ => exact absurd ⟨hm, hd⟩ hr
  | launched hm _ => exact absurd hm ho

/-- What is armed to attempt to connect does so until the attempts are used up. -/
theorem advance_of_reconnectDue (hr : s.ReconnectDue now m) :
    s.advance now m =
      if maxReconnectAttempts < s.connection.attempts + 1 then
        { s with
          timers := {}
          connection := { s.connection with
            link := .disconnected, opened := false, attempts := s.connection.attempts + 1 }
          outbox := s.outbox ++ [.terminate s.connection.attempts]
          counters := s.counters.add .reconnectAttempts 1 }
      else
        { s with
          timers := s.timers.cancel .reconnect
          nextTransaction := 0
          connection := { s.connection with
            link := .connecting, attempts := s.connection.attempts + 1 }
          outbox := s.outbox ++ [.connect]
          counters := s.counters.add .reconnectAttempts 1 } := by
  obtain ⟨rfl, hd⟩ := hr
  simp only [advance, expire, if_pos hd, fire, reconnect_eq]
  rfl

/-! ## The end -/

/-- What answers is waited for. -/
theorem Answer.state_ne_idle {inbound : Inbound} (h : s.Answer inbound now t) :
    s.state ≠ .idle := by
  cases h <;> simp [*]

/-- What holds of a session when its attempts are used up. -/
structure Spent (s : Session) : Prop where
  consistent : s.Consistent
  closed : s.connection.opened = false
  timers : s.timers = {}
  bytes : s.buffer.bytes = []
  attempts : s.connection.attempts = maxReconnectAttempts + 1

namespace Spent

theorem link (h : s.Spent) : s.connection.link = .disconnected := by
  refine Decidable.byContradiction fun hl => ?_
  have ho := h.consistent.sound.opened hl
  simp [h.closed] at ho

theorem not_isDue (h : s.Spent) (kind : TimerKind) : s.timers.isDue now kind = false := by
  rw [Bool.eq_false_iff]
  intro hd
  have ha := Timers.isArmed_of_isDue hd
  simp [h.timers] at ha

theorem not_unopened (h : s.Spent) : ¬ s.Unopened := by
  intro hu
  have ha := h.attempts
  rw [hu.connection] at ha
  cases ha

/-- A message of the equipment changes nothing of it. -/
theorem heard {inbound : Inbound} (h : s.Spent) (hh : s.Heard inbound t) : t.Spent := by
  have hc := h.consistent.heard hh
  cases hh with
  | asked _ => exact ⟨hc, h.closed, h.timers, h.bytes, h.attempts⟩
  | timedOut _ =>
    have ht : (s.cancel .commTimeout).timers = {} := by
      simp only [Session.cancel, h.timers]
      rfl
    exact ⟨hc, h.closed, ht, h.bytes, h.attempts⟩
  | malformed _ => exact ⟨hc, h.closed, h.timers, h.bytes, h.attempts⟩
  | alarmed _ alarms _ ht =>
    obtain ⟨acts, c, rfl, -⟩ := ht
    exact ⟨hc, h.closed, h.timers, h.bytes, h.attempts⟩
  | reported _ u ht =>
    obtain ⟨acts, c, rfl, -⟩ := ht
    exact ⟨hc, h.closed, h.timers, h.bytes, h.attempts⟩

theorem news (h : s.Spent) (hn : News s t) : t.Spent := by
  have hc := h.consistent.news hn
  obtain ⟨acts, c, rfl, -⟩ := hn
  exact ⟨hc, h.closed, h.timers, h.bytes, h.attempts⟩

/-- A session that is spent stays so, whatever happens. -/
theorem advance (h : s.Spent) (hm : s.Permits m) : (s.advance now m).Spent := by
  have hl := h.link
  have hidle : s.state = .idle := h.consistent.sound.idle (by simp [hl])
  have hn : s.isConnected = false := by simp [isConnected, hl]
  cases m with
  | opened => exact absurd hm h.not_unopened
  | connected => exact absurd (hl.symm.trans hm) (by decide)
  | connectFailed => exact absurd (hl.symm.trans hm) (by decide)
  | socketError => exact absurd (hl.symm.trans hm) (by decide)
  | socketEnd => exact absurd (hl.symm.trans hm) (by decide)
  | arrival received => exact absurd (hl.symm.trans hm) (by decide)
  | frame frame =>
    have hf := handled_handleFrame s now frame
    simp only [Session.advance]
    generalize s.handleFrame now frame = t at hf
    cases hf with
    | heard inbound _ _ ht => exact (h.news (News.count s _ _)).heard ht
    | answered inbound _ _ ht => exact absurd hidle ht.state_ne_idle
    | ignored counters => exact h.news ⟨[], counters, by simp, by simp⟩
  | settled =>
    have ht : s.timers.cancel .dataComplete = {} := by
      rw [h.timers]
      rfl
    have hc : (s.awaitRest now).Consistent := h.consistent.awaitRest
    simp only [Session.advance, awaitRest, Session.cancel, h.bytes, ht, List.isEmpty_nil,
      if_true] at hc ⊢
    exact ⟨hc, h.closed, rfl, h.bytes, h.attempts⟩
  | expiry kind =>
    have he : s.advance now (.expiry kind) = s := if_neg (by simp [h.not_isDue])
    rwa [he]
  | write name value =>
    have hw := written_write s name value now
    simp only [Session.advance]
    generalize (s.write name value now).1 = t at hw
    cases hw with
    | refused _ ht => exact h.news ht
    | sent _ _ hc _ _ => simp [hn] at hc
    | queued _ _ hc _ _ => simp [hn] at hc
  | stop =>
    by_cases hp : s.stopping = true
    · simpa [Session.advance, beginStop, hp] using h
    · have ht : s.advance now .stop =
          { s with stopping := true, timers := {}, pendingWrites := [] } := by
        simp [Session.advance, beginStop, hp, isConnected, hl, finishStop, h.closed]
      have hc : (s.advance now .stop).Consistent := h.consistent.advance hm
      rw [ht] at hc ⊢
      exact ⟨hc, h.closed, rfl, h.bytes, h.attempts⟩

end Spent

/-! ## The budget -/

/-- What holds of a session and its past. -/
structure Budgeted (past : List Passage) (s : Session) : Prop where
  consistent : s.Consistent
  halting : s.stopping = true → ∃ deadline, s.Halting deadline
  counted : s.connection.opened = true →
    s.connection.attempts = 1 + reconnectsSince past ∧
      s.connection.attempts ≤ maxReconnectAttempts
  bounded : s.connection.attempts ≤ maxReconnectAttempts ∨
    s.Spent ∧ ∃ p ∈ past, .terminate maxReconnectAttempts ∈ p.actions

theorem Unopened.budgeted (hu : s.Unopened) (hp : s.stopping = false) : Budgeted [] s := by
  refine ⟨hu.consistent, by simp [hp], ?_, ?_⟩ <;> simp [hu.connection, maxReconnectAttempts]

namespace Budgeted

/-- An attempt to connect that is due is made, or is the one too many and ends the session. -/
theorem reconnect (h : Budgeted past s) (hr : s.ReconnectDue now m) :
    s.connection.attempts < maxReconnectAttempts ∧
        Passage.actions ⟨s, now, m⟩ = [.connect] ∧
        (s.advance now m).connection.attempts = s.connection.attempts + 1 ∧
        (s.advance now m).handshakeComplete = s.handshakeComplete ∨
      s.connection.attempts = maxReconnectAttempts ∧
        Passage.actions ⟨s, now, m⟩ = [.terminate maxReconnectAttempts] ∧
        (s.advance now m).Spent := by
  have harmed := Timers.isArmed_of_isDue hr.2
  obtain ⟨hl, ho⟩ := h.consistent.sound.reconnect harmed
  obtain ⟨-, hle⟩ := h.counted ho
  have hadv := advance_of_reconnectDue hr
  split at hadv
  · next hmax =>
    right
    have hlast : s.connection.attempts = maxReconnectAttempts := by omega
    have hs : s.stopping = false := by
      rw [Bool.eq_false_iff]
      intro hp
      obtain ⟨deadline, hh⟩ := h.halting hp
      simp [hh.resigned] at harmed
    have hb := (h.consistent.settled hs).noBytes (by simp [hl])
    have hc : (s.advance now m).Consistent := h.consistent.advance (by rw [hr.1]; trivial)
    rw [hlast] at hadv
    refine ⟨hlast, actions_advance (by rw [hadv]), ?_⟩
    rw [hadv] at hc ⊢
    exact ⟨hc, rfl, rfl, hb, rfl⟩
  · next hmax =>
    left
    exact ⟨by omega, actions_advance (by rw [hadv]), by rw [hadv], by rw [hadv]⟩

/-- Nothing else attempts to connect but the opening. -/
theorem quiet (h : Budgeted past s) (ho : m ≠ .opened) (hr : ¬ s.ReconnectDue now m) :
    ∀ a ∈ Passage.actions ⟨s, now, m⟩, a.isAttempt = false := by
  obtain ⟨acts, hout, ha⟩ := (scores_advance h.consistent now m).quiet ho hr
  rwa [actions_advance hout]

theorem reconnects_eq_zero (h : Budgeted past s) (ho : m ≠ .opened) (hr : ¬ s.ReconnectDue now m) :
    Passage.reconnects ⟨s, now, m⟩ = 0 := by
  unfold Passage.reconnects
  split
  · rw [List.countP_eq_zero]
    intro a ha
    simp [Action.isConnect_of_isAttempt (h.quiet ho hr a ha)]
  · rfl

/-- An attempt to connect that is made is counted. -/
theorem counted_reconnect (h : Budgeted past s) (hr : s.ReconnectDue now m)
    (hopen : (s.advance now m).connection.opened = true) :
    (s.advance now m).connection.attempts = 1 + reconnectsSince (past ++ [⟨s, now, m⟩]) ∧
      (s.advance now m).connection.attempts ≤ maxReconnectAttempts := by
  obtain ⟨-, hs⟩ := h.consistent.sound.reconnect (Timers.isArmed_of_isDue hr.2)
  have hcount := (h.counted hs).1
  rcases h.reconnect hr with ⟨hlt, hacts, ha, hc⟩ | ⟨-, -, hspent⟩
  · have hnot : Passage.completes ⟨s, now, m⟩ = false := by
      rw [completes_advance, hc, Bool.not_and_self]
    have hone : Passage.reconnects ⟨s, now, m⟩ = 1 := by
      obtain ⟨rfl, -⟩ := hr
      simp only [Passage.reconnects, hacts]
      rfl
    have hne : m ≠ .opened := by
      rw [hr.1]
      simp
    rw [reconnectsSince_concat, Passage.renews_of_ne hne, hnot, hone, ha]
    exact ⟨by rw [hcount]; rfl, hlt⟩
  · simp [hspent.closed] at hopen

/-- Everything else leaves the count alone, but for the end of a handshake. -/
theorem counted_other (h : Budgeted past s) (ho : m ≠ .opened) (hr : ¬ s.ReconnectDue now m)
    (hopen : (s.advance now m).connection.opened = true) :
    (s.advance now m).connection.attempts = 1 + reconnectsSince (past ++ [⟨s, now, m⟩]) ∧
      (s.advance now m).connection.attempts ≤ maxReconnectAttempts := by
  rw [reconnectsSince_concat, Passage.renews_of_ne ho, h.reconnects_eq_zero ho hr]
  rcases (scores_advance h.consistent now m).attempts ho hr with ⟨ha, hc, hp⟩ | ⟨ha, hs, ht⟩
  · have hnot : Passage.completes ⟨s, now, m⟩ = false := by
      rw [completes_advance]
      cases ht : (s.advance now m).handshakeComplete with
      | false => simp
      | true => simp [hc ht]
    rw [hnot, ha]
    exact h.counted (hp hopen)
  · have hcomplete : Passage.completes ⟨s, now, m⟩ = true := by
      simpa [completes_advance, hs, hopen] using ht
    rw [hcomplete, ha, if_pos rfl]
    decide

theorem halting_advance (h : Budgeted past s) (hm : s.Permits m)
    (hp : (s.advance now m).stopping = true) : ∃ deadline, (s.advance now m).Halting deadline := by
  have hc := conduct_advance h.consistent now hm
  cases hs : s.stopping with
  | false => exact ⟨_, hc.begins_halting hs hp⟩
  | true =>
    obtain ⟨deadline, hh⟩ := h.halting hs
    by_cases ho : m = .opened
    · subst ho
      simp [Session.advance, launch_eq] at hp
    · exact ⟨deadline, hc.halting hh ho⟩

/-- The counter goes beyond the limit only when the session says that it has failed. -/
theorem bounded_advance (h : Budgeted past s) (hm : s.Permits m) :
    (s.advance now m).connection.attempts ≤ maxReconnectAttempts ∨
      (s.advance now m).Spent ∧
        ∃ p ∈ past ++ [⟨s, now, m⟩], .terminate maxReconnectAttempts ∈ p.actions := by
  rcases h.bounded with hle | ⟨hspent, p, hp, hterm⟩
  · by_cases ho : m = .opened
    · subst ho
      simp [Session.advance, launch_eq, maxReconnectAttempts]
    by_cases hr : s.ReconnectDue now m
    · rcases h.reconnect hr with ⟨hlt, -, ha, -⟩ | ⟨-, hacts, hspent⟩
      · left
        rw [ha]
        exact hlt
      · exact .inr ⟨hspent, ⟨s, now, m⟩, by simp, by simp [hacts]⟩
    · left
      rcases (scores_advance h.consistent now m).attempts ho hr with ⟨ha, -⟩ | ⟨ha, -⟩
      · rwa [ha]
      · rw [ha]
        decide
  · exact .inr ⟨hspent.advance hm, p, List.mem_append_left _ hp, hterm⟩

theorem advance (h : Budgeted past s) (hm : s.Permits m) :
    Budgeted (past ++ [⟨s, now, m⟩]) (s.advance now m) := by
  refine ⟨h.consistent.advance hm, h.halting_advance hm, fun hopen => ?_, h.bounded_advance hm⟩
  by_cases ho : m = .opened
  · subst ho
    simp [Session.advance, launch_eq, Passage.renews, maxReconnectAttempts]
  by_cases hr : s.ReconnectDue now m
  · exact h.counted_reconnect hr hopen
  · exact h.counted_other ho hr hopen

/-- A session that says that it has failed has an attempt to connect due that would be one too
many, and is spent. -/
theorem of_terminate (h : Budgeted past s) {failures : Nat}
    (ht : .terminate failures ∈ Passage.actions ⟨s, now, m⟩) :
    s.ReconnectDue now m ∧ s.connection.attempts = maxReconnectAttempts ∧
      failures = maxReconnectAttempts ∧ (s.advance now m).Spent := by
  by_cases hr : s.ReconnectDue now m
  · rcases h.reconnect hr with ⟨-, hacts, -⟩ | ⟨hlast, hacts, hspent⟩
    · simp [hacts] at ht
    · rw [hacts, List.mem_singleton, Action.terminate.injEq] at ht
      exact ⟨hr, hlast, ht, hspent⟩
  · by_cases ho : m = .opened
    · subst ho
      have hout : (s.advance now .opened).outbox = _ :=
        (congrArg outbox (launch_eq s)).trans (List.append_assoc _ _ _)
      rw [actions_advance hout] at ht
      simp at ht
    · have hquiet := h.quiet ho hr _ ht
      cases hquiet

theorem terminate_iff (h : Budgeted past s) :
    (∃ failures, .terminate failures ∈ Passage.actions ⟨s, now, m⟩) ↔
      s.ReconnectDue now m ∧ s.connection.attempts = maxReconnectAttempts := by
  constructor
  · rintro ⟨failures, ht⟩
    obtain ⟨hr, hlast, -⟩ := h.of_terminate ht
    exact ⟨hr, hlast⟩
  · rintro ⟨hr, hlast⟩
    rcases h.reconnect hr with ⟨hlt, -⟩ | ⟨-, hacts, -⟩
    · exact absurd hlast (Nat.ne_of_lt hlt)
    · exact ⟨maxReconnectAttempts, by simp [hacts]⟩

end Budgeted

/-- Nothing that happens to a session that is spent arms a timer or attempts to connect. -/
theorem Spent.chain {ps : List Passage} (h : s.Spent) (hc : Chain s ps t) :
    ∀ p ∈ ps, p.after.timers = {} ∧ .connect ∉ p.actions := by
  intro p hp
  obtain ⟨hs, hm, ht⟩ := (hc.invariant (fun _ _ _ hs hm => hs.advance hm) h).1 p hp
  refine ⟨ht.timers, fun hconnect => ?_⟩
  have ho : p.moment ≠ .opened := by
    intro ho
    rw [ho] at hm
    exact hs.not_unopened hm
  have hr : ¬ p.before.ReconnectDue p.now p.moment := by
    rintro ⟨-, hd⟩
    simp [hs.not_isDue] at hd
  obtain ⟨acts, hout, hquiet⟩ := (scores_advance hs.consistent p.now p.moment).quiet ho hr
  rw [actions_eq hout] at hconnect
  have hconn := hquiet _ hconnect
  cases hconn

/-! ## Runs -/

/-- While a session is open in a legal run, its counter is one more than the number of attempts to
connect that its timer has made since it was opened or a handshake was last completed, and never
more than the limit. The session says that it has failed exactly when its timer for an attempt to
connect expires with the limit used up, and says how often; before that the counter never passes the
limit, and from then on nothing is armed and nothing attempts to connect. -/
theorem reconnects_within_budget (machine : String) (model : Model) (catalog : Catalog)
    (run : List Occurrence) (h : (ofCatalog machine model catalog).Legal run) :
    ∀ past p future, (ofCatalog machine model catalog).history run = past ++ p :: future →
      (p.after.connection.opened = true →
        p.after.connection.attempts = 1 + reconnectsSince (past ++ [p]) ∧
          p.after.connection.attempts ≤ maxReconnectAttempts) ∧
      (p.after.connection.attempts ≤ maxReconnectAttempts ∨
        p.after.connection.attempts = maxReconnectAttempts + 1 ∧
          ∃ q ∈ past ++ [p], .terminate maxReconnectAttempts ∈ q.actions) ∧
      ((∃ failures, .terminate failures ∈ p.actions) ↔
        p.before.ReconnectDue p.now p.moment ∧
          p.before.connection.attempts = maxReconnectAttempts) ∧
      ∀ failures, .terminate failures ∈ p.actions →
        failures = maxReconnectAttempts ∧ p.after.timers = {} ∧
          ∀ q ∈ future, q.after.timers = {} ∧ .connect ∉ q.actions := by
  rintro past ⟨s, now, m⟩ future hhist
  have hu : (ofCatalog machine model catalog).Unopened := unopened_ofCatalog machine model catalog
  have hchain := chain_history h hu
  rw [hhist] at hchain
  obtain ⟨rfl, hm, hfuture⟩ := hchain.middle
  have hbudget := hchain.split.1.record (fun _ _ _ _ hI hm => hI.advance hm) (hu.budgeted rfl)
  have hafter : Budgeted (past ++ [⟨_, now, m⟩]) _ := hbudget.advance hm
  refine ⟨hafter.counted, hafter.bounded.imp_right fun ⟨hs, hq⟩ => ⟨hs.attempts, hq⟩,
    hbudget.terminate_iff, fun failures ht => ?_⟩
  obtain ⟨-, -, hmax, hspent⟩ := hbudget.of_terminate ht
  exact ⟨hmax, hspent.timers, hspent.chain hfuture⟩

/-- A connection on which communication is established breaks. The next one comes up and is closed
before communication is established, and the one after that does not come up. -/
def failingTalk : List Occurrence :=
  openTalk ++ [(600, .socketError), (600, .timer), (5600, .timer), (5700, .connected),
    (5800, .socketEnd), (5800, .timer), (10800, .timer), (10900, .connectFailed), (10900, .timer),
    (15900, .timer), (16000, .timer)]

theorem reconnects_within_budget_failingTalk :
    let s := ofCatalog "press" {} {}
    s.Legal failingTalk ∧ ∃ (past : List Passage) (p : Passage) (future : List Passage),
      s.history failingTalk = past ++ p :: future ∧ .terminate 3 ∈ p.actions ∧
        p.after.timers = {} ∧ ∀ q ∈ future, q.after.timers = {} ∧ .connect ∉ q.actions := by
  intro s
  have h : s.Legal failingTalk := by decide +kernel
  have hany : (s.history failingTalk).any (fun p => p.actions.any fun a =>
      a.isAttempt && !a.isConnect) = true := by decide +kernel
  obtain ⟨p, hp, hlast⟩ := List.any_eq_true.mp hany
  obtain ⟨a, ha, hterm⟩ := List.any_eq_true.mp hlast
  obtain ⟨past, future, hsplit⟩ := List.append_of_mem hp
  cases a with
  | terminate failures =>
    obtain ⟨-, -, -, hend⟩ :=
      reconnects_within_budget "press" {} {} failingTalk h past p future hsplit
    obtain ⟨rfl, hrest⟩ := hend failures ha
    exact ⟨h, past, p, future, hsplit, ha, hrest⟩
  | _ => simp [Action.isAttempt, Action.isConnect] at hterm

end Session

end GemLink
