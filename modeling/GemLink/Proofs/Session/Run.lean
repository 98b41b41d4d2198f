import GemLink.Proofs.Session.WriteCalls

/-!
Runs of a session. A run is a list of events with their times, and it is legal if the clock never
goes back, the session is opened at most once, connect results come only while the session is
connecting, and data and news of the socket only while it is connected.

An event is not one step: received data are handled frame by frame, and a look at the clock lets
one timer after the other expire. These steps are the moments of an event (`step_eq_foldl`), and the
history of a run is the list of all its moments with the sessions they found. A legal run is a chain
of permitted moments (`chain_history`), so that what each permitted moment keeps holds at every
point of a legal run.
-/

namespace GemLink

/-- An event and its time. -/
abbrev Occurrence := Nat × SessionEvent

/-- Whether an event opens the session. -/
def SessionEvent.isOpening : SessionEvent → Bool
  | .opened => true
  | _ => false

/-- Whether an event begins a stop. -/
def SessionEvent.isStop : SessionEvent → Bool
  | .stop => true
  | _ => false

namespace Session

/-! ## Legal runs -/

/-- Whether an event can happen to a session; `opened` tells whether it was opened before. -/
def admits (s : Session) (opened : Bool) : SessionEvent → Bool
  | .opened => !opened
  | .connected | .connectFailed => s.connection.link == .connecting
  | .data _ | .socketError | .socketEnd => s.connection.link == .connected
  | .timer | .write _ _ | .stop => true

/-- Whether a run is legal for a session that was last looked at at the time `clock`. -/
def LegalFrom (clock : Nat) (opened : Bool) (s : Session) : List Occurrence → Prop
  | [] => True
  | (now, event) :: rest =>
    clock ≤ now ∧ s.admits opened event = true ∧
      LegalFrom now (opened || event.isOpening) (s.step now event) rest

/-- Whether a run is legal for a session that has not been opened. -/
def Legal (s : Session) (run : List Occurrence) : Prop :=
  s.LegalFrom 0 false run

instance decidableLegalFrom : (clock : Nat) → (opened : Bool) → (s : Session) →
    (run : List Occurrence) → Decidable (s.LegalFrom clock opened run)
  | _, _, _, [] => isTrue trivial
  | clock, opened, s, (now, event) :: rest =>
    @instDecidableAnd _ _ (inferInstanceAs (Decidable (clock ≤ now)))
      (@instDecidableAnd _ _ (inferInstanceAs (Decidable (_ = _)))
        (decidableLegalFrom now (opened || event.isOpening) (s.step now event) rest))

instance (s : Session) (run : List Occurrence) : Decidable (s.Legal run) :=
  decidableLegalFrom 0 false s run

/-- The session after a run. -/
def after (s : Session) (run : List Occurrence) : Session :=
  run.foldl (fun s o => s.step o.1 o.2) s

/-- A connection on which communication is established. -/
def openTalk : List Occurrence :=
  [(0, .opened), (5, .connected), (6, .data [0, 0, 0, 10, 255, 255, 0, 0, 0, 2, 0, 0, 0, 1]),
    (506, .timer), (507, .data [0, 0, 0, 17, 0, 0, 1, 14, 0, 0, 0, 0, 0, 1, 1, 2, 33, 1, 0, 1, 0]),
    (508, .data [0, 0, 0, 13, 0, 0, 5, 4, 0, 0, 0, 0, 0, 2, 33, 1, 0])]

end Session

/-! ## Moments -/

/-- What happens to a session in one step. -/
inductive Moment where
  | opened
  | connected
  | connectFailed
  | socketError
  | socketEnd
  /-- Bytes are received and cut into frames. -/
  | arrival (received : Bytes)
  /-- A frame is handled. -/
  | frame (frame : Bytes)
  /-- All frames that were received have been handled. -/
  | settled
  /-- A timer expires, if it is due. -/
  | expiry (kind : TimerKind)
  | write (name : String) (value : Value)
  | stop

namespace Session

/-- The session after a moment. -/
def advance (s : Session) (now : Nat) : Moment → Session
  | .opened => s.launch
  | .connected => s.connected now
  | .connectFailed => s.disconnect false now
  | .socketError => s.disconnect false now
  | .socketEnd => s.closedByEquipment now
  | .arrival received =>
    { s.accept received with buffer := (s.accept received).buffer.drain.2 }
  | .frame frame => handleFrame now s frame
  | .settled => s.awaitRest now
  | .expiry kind => expire now s kind
  | .write name value => (s.write name value now).1
  | .stop => s.beginStop now

/-- The moments of an event. -/
def moments (s : Session) (now : Nat) : SessionEvent → List Moment
  | .opened => [.opened]
  | .connected => [.connected]
  | .connectFailed => [.connectFailed]
  | .socketError => [.socketError]
  | .socketEnd => [.socketEnd]
  | .data received =>
    .arrival received :: ((s.accept received).buffer.drain.1.map .frame ++ [.settled])
  | .timer => (s.timers.expired now).map .expiry
  | .write name value => [.write name value]
  | .stop => [.stop]

/-- The session after an event is the session after its moments. -/
theorem step_eq_foldl (s : Session) (now : Nat) (event : SessionEvent) :
    s.step now event = (s.moments now event).foldl (fun s m => s.advance now m) s := by
  cases event with
  | data received =>
    simp only [step, receive, moments, List.foldl_cons, List.foldl_append, List.foldl_map,
      List.foldl_nil]
    rfl
  | timer =>
    simp only [step, tick, moments, List.foldl_map]
    rfl
  | _ => rfl

/-- A session is opened, and a stop begins, at no moments but those of such an event. -/
theorem event_of_mem_moments {s : Session} {now : Nat} {event : SessionEvent} {m : Moment}
    (h : m ∈ s.moments now event) :
    (m = .opened → event.isOpening = true) ∧ (m = .stop → event.isStop = true) := by
  cases event with
  | data received =>
    simp only [moments, List.mem_cons, List.mem_append, List.mem_map, List.not_mem_nil,
      or_false] at h
    rcases h with rfl | ⟨frame, -, rfl⟩ | rfl <;> simp
  | timer =>
    obtain ⟨kind, -, rfl⟩ := List.mem_map.mp h
    simp
  | _ =>
    rw [List.mem_singleton.mp h]
    simp [SessionEvent.isOpening, SessionEvent.isStop]

end Session

/-- A moment and the session it finds. -/
structure Passage where
  /-- The session before the moment. -/
  before : Session
  /-- The time of the moment. -/
  now : Nat
  /-- The moment. -/
  moment : Moment

namespace Passage

/-- The session after the moment. -/
def after (p : Passage) : Session :=
  p.before.advance p.now p.moment

/-- The actions that the session appends at the moment. -/
def actions (p : Passage) : List Action :=
  p.after.outbox.drop p.before.outbox.length

end Passage

namespace Session

/-- The passages of moments that follow each other at one time. -/
def passages (s : Session) (now : Nat) : List Moment → List Passage
  | [] => []
  | m :: rest => ⟨s, now, m⟩ :: passages (s.advance now m) now rest

/-- All passages of a run, in order. -/
def history (s : Session) : List Occurrence → List Passage
  | [] => []
  | (now, event) :: rest =>
    s.passages now (s.moments now event) ++ (s.step now event).history rest

/-- The sessions at all points of a run, from its beginning on. -/
def visited (s : Session) (run : List Occurrence) : List Session :=
  s :: (s.history run).map Passage.after

theorem actions_eq {p : Passage} {acts : List Action}
    (h : p.after.outbox = p.before.outbox ++ acts) : p.actions = acts := by
  unfold Passage.actions
  rw [h, List.drop_left]

theorem actions_advance {s : Session} {now : Nat} {m : Moment} {acts : List Action}
    (h : (s.advance now m).outbox = s.outbox ++ acts) : Passage.actions ⟨s, now, m⟩ = acts :=
  actions_eq h

theorem mem_passages {s : Session} {now : Nat} {ms : List Moment} {p : Passage}
    (h : p ∈ s.passages now ms) : p.now = now ∧ p.moment ∈ ms := by
  induction ms generalizing s with
  | nil => cases h
  | cons m rest ih =>
    rcases List.mem_cons.mp h with rfl | h
    · exact ⟨rfl, List.mem_cons_self⟩
    · exact ⟨(ih h).1, List.mem_cons_of_mem m (ih h).2⟩

/-- Passages follow each other in time. -/
theorem history_pairwise {clock : Nat} {opened : Bool} {s : Session} {run : List Occurrence}
    (h : s.LegalFrom clock opened run) :
    (∀ p ∈ s.history run, clock ≤ p.now) ∧
      (s.history run).Pairwise fun p q => p.now ≤ q.now := by
  induction run generalizing clock opened s with
  | nil => simp [history]
  | cons o rest ih =>
    obtain ⟨now, event⟩ := o
    obtain ⟨hclock, -, hr⟩ := h
    obtain ⟨hlater, hpairs⟩ := ih hr
    have hnow : ∀ p ∈ s.passages now (s.moments now event), p.now = now :=
      fun p hp => (mem_passages hp).1
    unfold history
    rw [List.forall_mem_append, List.pairwise_append]
    refine ⟨⟨fun p hp => (hnow p hp).symm ▸ hclock, fun p hp => Nat.le_trans hclock (hlater p hp)⟩,
      ?_, hpairs, fun p hp q hq => (hnow p hp).symm ▸ hlater q hq⟩
    rw [List.pairwise_iff_forall_sublist]
    intro p q hpq
    have hp := hnow p (hpq.subset (by simp))
    have hq := hnow q (hpq.subset (by simp))
    exact Nat.le_of_eq (hp.trans hq.symm)

/-- The session that passages lead to. -/
def reached (s : Session) (ps : List Passage) : Session :=
  ps.foldl (fun _ p => p.after) s

@[simp] theorem reached_nil (s : Session) : s.reached [] = s :=
  rfl

@[simp] theorem reached_append (s : Session) (ps qs : List Passage) :
    s.reached (ps ++ qs) = (s.reached ps).reached qs :=
  List.foldl_append

@[simp] theorem reached_cons (s : Session) (p : Passage) (ps : List Passage) :
    s.reached (p :: ps) = p.after.reached ps :=
  rfl

/-- A list can be cut at each of its places. -/
theorem eq_cut {l : List Passage} {i : Nat} (h : i < l.length) :
    l = l.take i ++ l.get ⟨i, h⟩ :: l.drop (i + 1) := by
  have hdrop : l.drop i = l.get ⟨i, h⟩ :: l.drop (i + 1) := List.drop_eq_getElem_cons h
  rw [← hdrop, List.take_append_drop]

/-- A list can be cut at two of its places. -/
theorem eq_cut_pair {l : List Passage} {i j : Nat} (hi : i < l.length)
    (hj : j < (l.drop (i + 1)).length) :
    l = l.take i ++ l.get ⟨i, hi⟩ ::
      ((l.drop (i + 1)).take j ++ (l.drop (i + 1)).get ⟨j, hj⟩ :: (l.drop (i + 1)).drop (j + 1)) := by
  rw [← eq_cut hj, ← eq_cut hi]

/-- What holds at each place of a list holds wherever it is cut. -/
theorem forall_cut {l : List Passage} {P : List Passage → Passage → Prop}
    (h : ∀ i (hi : i < l.length), P (l.take i) (l.get ⟨i, hi⟩)) :
    ∀ past q future, l = past ++ q :: future → P past q := by
  rintro past q future rfl
  have hi : past.length < (past ++ q :: future).length := by simp
  have hq := h past.length hi
  rw [List.take_left] at hq
  simpa using hq

/-! ## Chains of permitted moments -/

/-- What holds of a session until it is opened. -/
structure Unopened (s : Session) : Prop where
  connection : s.connection = {}
  timers : s.timers = {}
  state : s.state = .idle
  handshakeComplete : s.handshakeComplete = false
  pendingWrites : s.pendingWrites = []
  bytes : s.buffer.bytes = []

theorem unopened_ofCatalog (machine : String) (model : Model) (catalog : Catalog) :
    (ofCatalog machine model catalog).Unopened :=
  ⟨rfl, rfl, rfl, rfl, rfl, rfl⟩

/-- Whether a moment can come to a session in a legal run. -/
def Permits (s : Session) : Moment → Prop
  | .opened => s.Unopened
  | .connected | .connectFailed => s.connection.link = .connecting
  | .arrival _ | .socketError | .socketEnd => s.connection.link = .connected
  | .frame _ | .settled | .expiry _ | .write _ _ | .stop => True

/-- Passages of permitted moments, each of which finds the session that the one before it left. -/
inductive Chain : Session → List Passage → Session → Prop
  | nil (s : Session) : Chain s [] s
  | cons {s s' : Session} {now : Nat} {m : Moment} {rest : List Passage} (hm : s.Permits m)
      (h : Chain (s.advance now m) rest s') : Chain s (⟨s, now, m⟩ :: rest) s'

namespace Chain

theorem append {s t u : Session} {ps qs : List Passage} (h : Chain s ps t) (h' : Chain t qs u) :
    Chain s (ps ++ qs) u := by
  induction h with
  | nil => exact h'
  | cons hm _ ih => exact .cons hm (ih h')

/-- What each permitted moment keeps holds at every point of a chain. -/
theorem invariant {I : Session → Prop}
    (hI : ∀ s now m, I s → s.Permits m → I (s.advance now m)) {s s' : Session}
    {ps : List Passage} (h : Chain s ps s') (hs : I s) :
    (∀ p ∈ ps, I p.before ∧ p.before.Permits p.moment ∧ I p.after) ∧ I s' := by
  induction h with
  | nil => exact ⟨by simp, hs⟩
  | @cons s s' now m rest hm _ ih =>
    have hn := hI s now m hs hm
    obtain ⟨hr, hl⟩ := ih hn
    refine ⟨?_, hl⟩
    intro p hp
    rcases List.mem_cons.mp hp with rfl | hp
    · exact ⟨hs, hm, hn⟩
    · exact hr p hp

theorem reached {s s' : Session} {ps : List Passage} (h : Chain s ps s') : s.reached ps = s' := by
  induction h with
  | nil => rfl
  | cons _ _ ih => exact ih

/-- A chain can be cut anywhere. -/
theorem split {s s' : Session} {ps qs : List Passage} (h : Chain s (ps ++ qs) s') :
    Chain s ps (s.reached ps) ∧ Chain (s.reached ps) qs s' := by
  induction ps generalizing s with
  | nil => exact ⟨.nil s, h⟩
  | cons p rest ih =>
    cases h with
    | cons hm h =>
      obtain ⟨hp, hq⟩ := ih h
      exact ⟨.cons hm hp, hq⟩

/-- The passage in the middle of a chain finds the session that those before it lead to. -/
theorem middle {s s' : Session} {ps qs : List Passage} {p : Passage}
    (h : Chain s (ps ++ p :: qs) s') :
    p.before = s.reached ps ∧ p.before.Permits p.moment ∧ Chain p.after qs s' := by
  obtain ⟨-, h⟩ := h.split
  cases h with
  | cons hm h => exact ⟨rfl, hm, h⟩

/-- What is true of a past and the session that it has led to, and stays true with each permitted
moment of some kind, is true all along a chain of such moments. -/
theorem record_of {Q : Passage → Prop} {I : List Passage → Session → Prop}
    (hI : ∀ ps t now m, I ps t → t.Permits m → Q ⟨t, now, m⟩ →
      I (ps ++ [⟨t, now, m⟩]) (t.advance now m))
    {s s' : Session} {past ps : List Passage} (h : Chain s ps s') (hQ : ∀ p ∈ ps, Q p)
    (hs : I past s) : I (past ++ ps) s' := by
  induction h generalizing past with
  | nil => rwa [List.append_nil]
  | @cons s s' now m rest hm _ ih =>
    rw [List.forall_mem_cons] at hQ
    have hn := ih hQ.2 (hI past s now m hs hm hQ.1)
    rwa [List.append_assoc] at hn

/-- What is true of a past and the session that it has led to, and stays true with each permitted
moment, is true all along a chain. -/
theorem record {I : List Passage → Session → Prop}
    (hI : ∀ ps t now m, I ps t → t.Permits m → I (ps ++ [⟨t, now, m⟩]) (t.advance now m))
    {s s' : Session} {past ps : List Passage} (h : Chain s ps s') (hs : I past s) :
    I (past ++ ps) s' :=
  h.record_of (Q := fun _ => True) (fun ps t now m ht hm _ => hI ps t now m ht hm)
    (fun _ _ => trivial) hs

end Chain

/-- Moments that are permitted whatever the session is form a chain. -/
theorem chain_passages (s : Session) (now : Nat) (ms : List Moment)
    (h : ∀ m ∈ ms, ∀ t : Session, t.Permits m) :
    Chain s (s.passages now ms) (ms.foldl (fun s m => s.advance now m) s) := by
  induction ms generalizing s with
  | nil => exact .nil s
  | cons m rest ih =>
    rw [List.forall_mem_cons] at h
    exact .cons (h.1 s) (ih _ h.2)

theorem chain_event {s : Session} {opened : Bool} (now : Nat) {event : SessionEvent}
    (h : s.admits opened event = true) (hu : opened = false → s.Unopened) :
    Chain s (s.passages now (s.moments now event)) (s.step now event) := by
  rw [step_eq_foldl]
  cases event with
  | data received =>
    refine .cons (by simpa [admits, Permits] using h) (chain_passages _ now _ ?_)
    intro m hm t
    rcases List.mem_append.mp hm with hm | hm
    · obtain ⟨frame, -, rfl⟩ := List.mem_map.mp hm
      trivial
    · rw [List.mem_singleton.mp hm]
      trivial
  | timer =>
    refine chain_passages _ now _ ?_
    intro m hm t
    obtain ⟨kind, -, rfl⟩ := List.mem_map.mp hm
    trivial
  | opened => exact .cons (hu (by simpa [admits, Permits] using h)) (.nil _)
  | connected => exact .cons (by simpa [admits, Permits] using h) (.nil _)
  | connectFailed => exact .cons (by simpa [admits, Permits] using h) (.nil _)
  | socketError => exact .cons (by simpa [admits, Permits] using h) (.nil _)
  | socketEnd => exact .cons (by simpa [admits, Permits] using h) (.nil _)
  | write name value => exact .cons trivial (.nil _)
  | stop => exact .cons trivial (.nil _)

theorem Unopened.news {s t : Session} (hu : s.Unopened) (h : News s t) : t.Unopened := by
  obtain ⟨acts, c, rfl, -⟩ := h
  exact ⟨hu.connection, hu.timers, hu.state, hu.handshakeComplete, hu.pendingWrites, hu.bytes⟩

/-- Nothing but opening it changes what holds of a session until it is opened. -/
theorem Unopened.step {s : Session} (hu : s.Unopened) (now : Nat) {event : SessionEvent}
    (h : s.admits false event = true) (ho : event.isOpening = false) :
    (s.step now event).Unopened := by
  have hc := hu.connection
  cases event with
  | opened => cases ho
  | timer =>
    have he : s.timers.expired now = [] := by
      simp [hu.timers, Timers.expired, TimerKind.all, Timers.isDue, Timers.deadline?]
    simpa only [Session.step, tick, he, List.foldl_nil] using hu
  | write name value =>
    have hn : s.isConnected = false := by simp [isConnected, hc]
    have hw := written_write s name value now
    simp only [Session.step]
    generalize (s.write name value now).1 = t at hw
    cases hw with
    | refused _ ht => exact hu.news ht
    | sent t ht hc => simp [hn] at hc
    | queued t ht hc => simp [hn] at hc
  | stop =>
    simp only [Session.step, beginStop]
    split
    · exact hu
    · rw [if_neg (by simp [isConnected, hc])]
      simp only [finishStop, hc]
      exact ⟨rfl, rfl, hu.state, hu.handshakeComplete, rfl, hu.bytes⟩
  | data received => simp [admits, hc] at h
  | connected => simp [admits, hc] at h
  | connectFailed => simp [admits, hc] at h
  | socketError => simp [admits, hc] at h
  | socketEnd => simp [admits, hc] at h

theorem chain_legalFrom {clock : Nat} {opened : Bool} {s : Session} {run : List Occurrence}
    (h : s.LegalFrom clock opened run) (hu : opened = false → s.Unopened) :
    Chain s (s.history run) (s.after run) := by
  induction run generalizing clock opened s with
  | nil => exact .nil s
  | cons o rest ih =>
    obtain ⟨now, event⟩ := o
    obtain ⟨-, ha, hr⟩ := h
    refine (chain_event now ha hu).append (ih hr ?_)
    intro ho
    obtain ⟨rfl, he⟩ : opened = false ∧ event.isOpening = false := by simpa using ho
    exact (hu rfl).step now ha he

/-- A legal run is a chain of permitted moments. -/
theorem chain_history {s : Session} {run : List Occurrence} (h : s.Legal run)
    (hu : s.Unopened) : Chain s (s.history run) (s.after run) :=
  chain_legalFrom h fun _ => hu

/-! ## What a session keeps once it is opened -/

/-- What every permitted moment of a time keeps but an opening, an event of that time keeps that is
no opening. -/
theorem kept_step {I : Session → Prop} {s : Session} {now : Nat} {opened : Bool}
    {event : SessionEvent} (ha : s.admits opened event = true)
    (hu : opened = false → s.Unopened) (he : event.isOpening = false)
    (hI : ∀ t m, I t → t.Permits m → m ≠ .opened → I (t.advance now m)) (hs : I s) :
    I (s.step now event) := by
  have hkept : ∀ {t u : Session} {ps : List Passage}, Chain t ps u →
      (∀ p ∈ ps, p.now = now ∧ p.moment ≠ .opened) → I t → I u := by
    intro t u ps hc
    induction hc with
    | nil => exact fun _ ht => ht
    | @cons t _ _ m rest hm _ ih =>
      intro hp ht
      rw [List.forall_mem_cons] at hp
      obtain ⟨⟨rfl, hne⟩, hrest⟩ := hp
      exact ih hrest (hI t m ht hm hne)
  refine hkept (chain_event now ha hu) (fun p hp => ?_) hs
  obtain ⟨hnow, hm⟩ := mem_passages hp
  refine ⟨hnow, fun ho => ?_⟩
  have hopening := (event_of_mem_moments hm).1 ho
  simp [he] at hopening

theorem isOpening_eq_false {s : Session} {event : SessionEvent}
    (h : s.admits true event = true) : event.isOpening = false := by
  cases event with
  | opened => cases h
  | _ => rfl

theorem kept_after {I : Session → Prop} {s : Session} {clock : Nat} {run : List Occurrence}
    (h : s.LegalFrom clock true run)
    (hI : ∀ t now m, I t → t.Permits m → m ≠ .opened → I (t.advance now m)) (hs : I s) :
    I (s.after run) := by
  induction run generalizing clock s with
  | nil => exact hs
  | cons o rest ih =>
    obtain ⟨now, event⟩ := o
    obtain ⟨-, ha, hr⟩ := h
    have hnext : I (s.step now event) :=
      kept_step ha (fun h => by cases h) (isOpening_eq_false ha) (fun t m => hI t now m) hs
    exact ih (by simpa using hr) hnext

end Session

end GemLink
