import GemLink.Proofs.Session.Consistent
import GemLink.Proofs.Session.Setup

/-!
What holds at every point of a legal run until a stop begins. `WellFormed` says how the state, the
timers, the queue of writes, the buffer and the connection of a session belong together, and
`wellFormed_visited` says that no legal run leaves it. A request that is overdue is therefore always
one that can be sent again.
-/

namespace GemLink.Session

/-- How the parts of a session belong together until a stop begins. -/
structure WellFormed (s : Session) : Prop where
  /-- Without a connection nothing is open and nothing waits, and of the timers only the next
  attempt to connect and the report that the machine is disconnected can be armed; the attempt is
  armed exactly when the session is still open and disconnected. -/
  down : s.connection.link ≠ .connected →
    s.state = .idle ∧ s.handshakeComplete = false ∧ s.pendingWrites = [] ∧ s.buffer.bytes = [] ∧
      (∀ kind, s.timers.isArmed kind = true → kind = .reconnect ∨ kind = .disconnectReport) ∧
      (s.timers.isArmed .reconnect = true ↔
        s.connection.opened = true ∧ s.connection.link = .disconnected)
  /-- A connected session in which nothing is open has established communication, has no write
  waiting, and has set its next poll. -/
  resting : s.connection.link = .connected → s.state = .idle →
    s.handshakeComplete = true ∧ s.pendingWrites = [] ∧ s.timers.isArmed .poll = true
  /-- Only the answer to a request can be overdue, and the request can be sent again. -/
  asking : s.timers.isArmed .commTimeout = true →
    ∃ request, s.state = .awaitingReply request ∧ s.state.retry? = some request
  /-- The equipment's time to establish communication runs exactly while it is waited for. -/
  fallback : s.connection.link = .connected →
    (s.timers.isArmed .establishFallback = true ↔ s.state = .awaitingEquipment)
  /-- The wait for the acknowledgement of a write ends. -/
  writing : s.state = .awaitingWrite → s.timers.isArmed .writeTimeout = true
  /-- Polls and link tests are set only when communication is established. -/
  polling : s.timers.isArmed .poll = true ∨ s.timers.isArmed .linkTest = true →
    s.handshakeComplete = true

theorem Consistent.wellFormed {s : Session} (h : s.Consistent) (hs : s.stopping = false) :
    s.WellFormed where
  down hd := by
    have hb := h.settled hs
    refine ⟨h.sound.idle hd, h.sound.incomplete hd, hb.noWrites hd, hb.noBytes hd,
      hb.fewTimers hd, ?_⟩
    exact ⟨fun ha => (h.sound.reconnect ha).symm, fun ⟨ho, hl⟩ => hb.reconnecting ho hl⟩
  resting hc hi := by
    refine ⟨?_, (h.settled hs).resting hc hi⟩
    rw [h.sound.established hc, hi]
    rfl
  asking ha := by
    obtain ⟨request, hr⟩ := h.sound.asking ha
    refine ⟨request, hr, ?_⟩
    rw [hr]
    rfl
  fallback := (h.settled hs).fallback
  writing := (h.settled hs).writing
  polling := (h.settled hs).polling

/-! ## Until a stop begins -/

/-- The part of a run before a stop begins. -/
def beforeStop (run : List Occurrence) : List Occurrence :=
  run.takeWhile fun o => !o.2.isStop

theorem LegalFrom.beforeStop {clock : Nat} {opened : Bool} {s : Session} {run : List Occurrence}
    (h : s.LegalFrom clock opened run) : s.LegalFrom clock opened (beforeStop run) := by
  induction run generalizing clock opened s with
  | nil => exact h
  | cons o rest ih =>
    obtain ⟨now, event⟩ := o
    obtain ⟨hc, ha, hr⟩ := h
    unfold Session.beforeStop
    rw [List.takeWhile_cons]
    split
    · exact ⟨hc, ha, ih hr⟩
    · trivial

theorem history_ne_stop {s : Session} {run : List Occurrence}
    (h : ∀ o ∈ run, o.2.isStop = false) : ∀ p ∈ s.history run, p.moment ≠ .stop := by
  induction run generalizing s with
  | nil => simp [history]
  | cons o rest ih =>
    rw [List.forall_mem_cons] at h
    unfold history
    rw [List.forall_mem_append]
    refine ⟨fun p hp hstop => ?_, ih h.2⟩
    have hevent := (event_of_mem_moments (mem_passages hp).2).2 hstop
    simp [h.1] at hevent

/-- No moment but a stop begins one. -/
theorem stopping_advance {s : Session} {now : Nat} {m : Moment} (hs : s.stopping = false)
    (hm : m ≠ .stop) : (s.advance now m).stopping = false := by
  by_cases ho : m = .opened
  · rw [ho]
    simp [advance, launch_eq]
  · have h := setup_advance s now ho hm
    simp only [setup, Prod.mk.injEq] at h
    rw [h.2.2.2, hs]

theorem stopping_chain {s s' : Session} {ps : List Passage} (h : Chain s ps s')
    (hs : s.stopping = false) (hp : ∀ p ∈ ps, p.moment ≠ .stop) :
    ∀ p ∈ ps, p.after.stopping = false := by
  induction h with
  | nil => simp
  | @cons s _ now m _ hm _ ih =>
    rw [List.forall_mem_cons] at hp ⊢
    have hn : (s.advance now m).stopping = false := stopping_advance hs hp.1
    exact ⟨hn, ih hn hp.2⟩

/-- Until a stop begins a legal run is a chain of permitted moments other than a stop. -/
theorem chain_beforeStop {s : Session} {run : List Occurrence} (h : s.Legal run)
    (hu : s.Unopened) :
    Chain s (s.history (beforeStop run)) (s.after (beforeStop run)) ∧
      ∀ p ∈ s.history (beforeStop run), p.moment ≠ .stop := by
  refine ⟨chain_history (LegalFrom.beforeStop h) hu, history_ne_stop fun o ho => ?_⟩
  simpa using List.all_eq_true.mp List.all_takeWhile o ho

/-- A session is well-formed at every point of a legal run until a stop begins, and a request that
is overdue is always one that can be sent again. -/
theorem wellFormed_visited (machine : String) (model : Model) (catalog : Catalog)
    (run : List Occurrence) (h : (ofCatalog machine model catalog).Legal run) :
    (∀ s ∈ (ofCatalog machine model catalog).visited (beforeStop run), s.WellFormed) ∧
      ∀ p ∈ (ofCatalog machine model catalog).history run, p.moment = .expiry .commTimeout →
        p.before.timers.isDue p.now .commTimeout = true →
          ∃ request, p.before.state.retry? = some request := by
  have hu := unopened_ofCatalog machine model catalog
  refine ⟨?_, ?_⟩
  · have hb : (ofCatalog machine model catalog).Legal (beforeStop run) := LegalFrom.beforeStop h
    have hr : ∀ o ∈ beforeStop run, o.2.isStop = false := by
      intro o ho
      simpa using List.all_eq_true.mp List.all_takeWhile o ho
    have hc := consistent_history hb hu
    have hs := stopping_chain (chain_history hb hu) rfl (history_ne_stop hr)
    unfold visited
    rw [List.forall_mem_cons]
    refine ⟨hu.consistent.wellFormed rfl, ?_⟩
    intro s hm
    obtain ⟨p, hp, rfl⟩ := List.mem_map.mp hm
    exact (hc p hp).2.2.wellFormed (hs p hp)
  · intro p hp _ hd
    obtain ⟨request, hr⟩ := (consistent_history h hu p hp).1.sound.asking
      (Timers.isArmed_of_isDue hd)
    exact ⟨request, by rw [hr]; rfl⟩

/-- A connection whose first request is sent twice before it is answered, and that is then lost. -/
def shortConnection : List Occurrence :=
  [(0, .opened), (5, .connected), (2005, .timer),
    (2006, .data [0, 0, 0, 10, 255, 255, 0, 0, 0, 2, 0, 1, 0, 1]), (2100, .socketEnd),
    (7100, .timer)]

theorem wellFormed_visited_shortConnection :
    (ofCatalog "press" {} {}).Legal shortConnection ∧
      ∀ s ∈ (ofCatalog "press" {} {}).visited (beforeStop shortConnection), s.WellFormed :=
  ⟨by decide +kernel, (wellFormed_visited "press" {} {} shortConnection (by decide +kernel)).1⟩

end GemLink.Session
