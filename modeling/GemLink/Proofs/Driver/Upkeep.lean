import GemLink.Proofs.Driver.Reactors
import GemLink.Proofs.Session.Deadlines
import GemLink.Proofs.Session.Stops

/-!
What a running reactor keeps up. One step of a reactor does one of four things to its session
(`Session.Driven`): the first action is taken, the connection fails while a frame is sent, the
counts are handed over, or an event that the session admits is passed on. So what holds of a session
in a legal run holds of that of a reactor, although its actions are taken away in between
(`Session.Steady`); the clock, and whether the host works, are not a reactor's to change
(`Reactor.Step.around`); and a command to stop stays in its inbox until its session stops
(`Reactor.Step.stop_kept`).
-/

namespace GemLink

namespace Session

/-- What a step of a reactor does to its session. -/
inductive Driven (now : Nat) (s : Session) : Session → Prop
  /-- The first action is taken, and is not the last word. -/
  | taken (a : Action) (rest : List Action) (ho : s.outbox = a :: rest) (ha : a.isFinal = false) :
      Driven now s { s with outbox := rest, counters := {} }
  /-- A frame is sent, at which the connection fails. -/
  | failed (frame : Bytes) (rest : List Action) (ho : s.outbox = .send frame :: rest) :
      Driven now s ({ s with outbox := rest, counters := {} }.disconnect false now)
  /-- The counts are handed over, if anything. -/
  | counted (counters : Counters) : Driven now s { s with counters }
  /-- An event is passed on when no action is left. -/
  | event (e : SessionEvent) (ho : s.outbox = []) (he : e.isOpening = false)
      (ha : s.admits true e = true) : Driven now s (s.step now e)

variable {s t : Session} {now clock deadline : Nat}

/-- What holds of the session of a reactor that runs: it is open until its last word, and once it
has begun to stop the time of the stop runs. -/
structure Steady (clock : Nat) (s : Session) : Prop where
  consistent : s.Consistent
  lastWord : s.outbox.countP Action.isFinal + s.connection.opened.toNat = 1
  halting : s.stopping = true → ∃ deadline ≤ clock + stopGrace, s.Halting deadline
  spaced : s.settings.Spaced

theorem Consistent.taken (h : s.Consistent) (rest : List Action) (counters : Counters) :
    { s with outbox := rest, counters }.Consistent :=
  h.congr rfl rfl rfl rfl rfl rfl (fun _ hb => hb) rfl

theorem Halting.taken (h : s.Halting deadline) (rest : List Action) (counters : Counters) :
    { s with outbox := rest, counters }.Halting deadline :=
  ⟨h.stopping, h.resigned, h.grace⟩

/-- The loss of a connection may come to a session at any time. -/
theorem Consistent.disconnect (h : s.Consistent) : (s.disconnect false now).Consistent := by
  cases ho : s.connection.opened with
  | true => exact consistent_disconnect ho false
  | false =>
    unfold Session.disconnect
    rw [if_pos (by simp [ho])]
    exact h

theorem conduct_disconnect (s : Session) (now : Nat) :
    s.Conduct now .socketError (s.disconnect false now) :=
  (outcome_disconnect s now false).conduct

/-- Once begun, a stop goes on. -/
theorem Driven.halting (h : s.Driven now t) (hc : s.Consistent) (hh : s.Halting deadline) :
    t.Halting deadline := by
  cases h with
  | taken a rest _ _ => exact hh.taken rest {}
  | failed frame rest _ => exact (conduct_disconnect _ now).halting (hh.taken rest {}) (by simp)
  | counted counters => exact hh.taken s.outbox counters
  | event e _ he ha =>
    have hkept : (s.step now e).Consistent ∧ (s.step now e).Halting deadline :=
      kept_step (I := fun u => u.Consistent ∧ u.Halting deadline) ha (fun h => by cases h) he
        (fun u m hu hm hne => ⟨hu.1.advance hm, (conduct_advance hu.1 now hm).halting hu.2 hne⟩)
        ⟨hc, hh⟩
    exact hkept.2

namespace Steady

theorem later (h : s.Steady clock) (hc : clock ≤ now) : s.Steady now :=
  ⟨h.consistent, h.lastWord, fun hp => by
    obtain ⟨deadline, hd, hh⟩ := h.halting hp
    exact ⟨deadline, Nat.le_trans hd (Nat.add_le_add_right hc _), hh⟩, h.spaced⟩

/-- Of a session without actions that are to be taken. -/
theorem opened (h : s.Steady clock) (ho : s.outbox = []) : s.connection.opened = true := by
  have hlast := h.lastWord
  rw [ho, List.countP_nil] at hlast
  cases hopened : s.connection.opened with
  | true => rfl
  | false => simp [hopened] at hlast

/-- What conduct keeps. -/
theorem conduct {m : Moment} (h : s.Steady now) (hc : s.Conduct now m t) (ht : t.Consistent)
    (hs : t.settings = s.settings) (hm : m ≠ .opened) : t.Steady now := by
  refine ⟨ht, (hc.conserves hm).trans h.lastWord, fun hp => ?_, hs ▸ h.spaced⟩
  cases hstop : s.stopping with
  | true =>
    obtain ⟨deadline, hd, hh⟩ := h.halting hstop
    exact ⟨deadline, hd, hc.halting hh hm⟩
  | false => exact ⟨now + stopGrace, Nat.le_refl _, hc.begins_halting hstop hp⟩

theorem taken (h : s.Steady now) {a : Action} {rest : List Action} (ho : s.outbox = a :: rest)
    (ha : a.isFinal = false) : { s with outbox := rest, counters := {} }.Steady now := by
  refine ⟨h.consistent.taken rest {}, ?_, fun hp => ?_, h.spaced⟩
  · have hlast := h.lastWord
    rwa [ho, List.countP_cons_of_neg (by simp [ha])] at hlast
  · obtain ⟨deadline, hd, hh⟩ := h.halting hp
    exact ⟨deadline, hd, hh.taken rest {}⟩

theorem driven (h : s.Steady now) (hd : s.Driven now t) : t.Steady now := by
  cases hd with
  | taken a rest ho ha => exact h.taken ho ha
  | failed frame rest ho =>
    have ht := h.taken ho rfl
    exact ht.conduct (conduct_disconnect _ now) ht.consistent.disconnect
      (defers_disconnect _ now false).settings (by simp)
  | counted counters =>
    refine ⟨h.consistent.taken s.outbox counters, h.lastWord, fun hp => ?_, h.spaced⟩
    obtain ⟨deadline, hd, hh⟩ := h.halting hp
    exact ⟨deadline, hd, hh.taken s.outbox counters⟩
  | event e ho he ha =>
    exact kept_step ha (fun h => by cases h) he (fun u m hu hm hne =>
      hu.conduct (conduct_advance hu.consistent now hm) (hu.consistent.advance hm)
        (defers_advance u now m).settings hne) h

theorem launch (name : String) (model : Model) (catalog : Catalog) (now : Nat) :
    (ofCatalog name model catalog).launch.Steady now := by
  have hu := unopened_ofCatalog name model catalog
  have hstanding : Standing now true (ofCatalog name model catalog).launch :=
    (hu.standing rfl rfl).launch hu
  have hsettings : (ofCatalog name model catalog).launch.settings = .ofModel model :=
    (defers_advance (ofCatalog name model catalog) now .opened).settings
  exact ⟨hstanding.consistent, hstanding.lastWord, hstanding.halting,
    hsettings ▸ SessionSettings.spaced_ofModel model⟩

end Steady

end Session

/-! ## Reactors -/

/-- Whether the in-memory host fails in nothing that a stop asks of it. -/
structure Host.Works (h : Host) : Prop where
  alerts : h.alertsFailing = false
  config : h.configFailing = false

/-- What is around a reactor and not its to change: the clock, and whether the host works. -/
structure Surroundings.Around (w w' : Surroundings) : Prop where
  now : w'.now = w.now
  alerts : w'.host.alertsFailing = w.host.alertsFailing
  config : w'.host.configFailing = w.host.configFailing

namespace Surroundings

variable {w w' : Surroundings}

theorem Around.trans {w'' : Surroundings} (h : Around w w') (h' : Around w' w'') :
    Around w w'' :=
  ⟨h'.now.trans h.now, h'.alerts.trans h.alerts, h'.config.trans h.config⟩

theorem around_hangUp (w : Surroundings) (socket? : Option Nat) : Around w (w.hangUp socket?) := by
  cases socket? <;> exact ⟨rfl, rfl, rfl⟩

theorem around_publish (w : Surroundings) (machine : String) (target : Variable) (value : Value)
    (report : Bool) : Around w (w.publish machine target value report) := by
  unfold publish
  dsimp only
  split
  · split <;> exact ⟨rfl, rfl, rfl⟩
  · split <;> exact ⟨rfl, rfl, rfl⟩

theorem around_storeStatus (w : Surroundings) (path : String) (connected : Bool) :
    Around w (w.storeStatus path connected) := by
  unfold storeStatus onHost Host.store
  dsimp only
  split <;> exact ⟨rfl, rfl, rfl⟩

end Surroundings

namespace Reactor

variable {w w' : Surroundings} {r r' : Reactor} {after : ReactorTask}

theorem around_release (w : Surroundings) (r : Reactor) : w.Around (r.release w).1 :=
  (w.around_hangUp _).trans (Surroundings.around_hangUp _ _)

theorem around_act (w : Surroundings) (r : Reactor) (a : Action) : w.Around (r.act w a).1 := by
  cases a with
  | connect => exact around_release w r
  | send frame =>
    unfold act
    dsimp only
    split
    · exact ⟨rfl, rfl, rfl⟩
    · split
      · exact ⟨rfl, rfl, rfl⟩
      · exact Surroundings.around_hangUp w (some _)
  | close _ => exact around_release w r
  | publish _ _ _ => exact w.around_publish _ _ _ _
  | raise _ _ => exact ⟨rfl, rfl, rfl⟩
  | clear _ => exact ⟨rfl, rfl, rfl⟩
  | status _ => exact w.around_storeStatus _ _
  | stopped => exact around_release w r
  | terminate _ => exact around_release w r

/-- What an event does to a reactor, and when it can happen. -/
inductive Happens (w : Surroundings) (r : Reactor) : ReactorEvent → Surroundings → Reactor → Prop
  /-- The first command is carried out. -/
  | command (c : Command) (rest : List Command) (hi : r.inbox = c :: rest) :
      Happens w r .command w ({ r with inbox := rest }.command w.now c)
  /-- No more commands will come, which is a stop. -/
  | closed (hc : r.inboxClosed = true) (ho : r.commandsOpen = true) :
      Happens w r .command w
        { r with commandsOpen := false, session := r.session.beginStop w.now }
  /-- The equipment accepts an attempt. -/
  | acceptance (ha : r.attempt = some .underway) (network : Network) (socket : Nat)
      (hn : w.network.accept? = some (network, socket)) :
      Happens w r .acceptance { w with network } { r with attempt := some (.accepted socket) }
  /-- The reactor notices that it was accepted. -/
  | connection (socket : Nat) (ha : r.attempt = some (.accepted socket)) :
      Happens w r .connection (w.hangUp r.socket)
        { r with
          attempt := none, socket := some socket, session := r.session.connected w.now }
  /-- An attempt fails. -/
  | refusal (attempt : Attempt) (ha : r.attempt = some attempt) :
      Happens w r .refusal (w.hangUp attempt.socket?)
        { r with attempt := none, session := r.session.disconnect false w.now }
  /-- Bytes are read. -/
  | bytes (socket : Nat) (k : Socket) (hs : r.socket = some socket)
      (hk : w.network.sockets[socket]? = some k) (hu : k.unread ≠ []) :
      Happens w r .reading
        { w with network := { w.network with
            sockets := w.network.sockets.modify socket fun k =>
              { k with unread := k.unread.drop readChunk } } }
        { r with session := r.session.receive (k.unread.take readChunk) w.now }
  /-- The connection has broken down. -/
  | breakdown (socket : Nat) (hs : r.socket = some socket) :
      Happens w r .reading (w.hangUp (some socket))
        { r with socket := none, session := r.session.disconnect false w.now }
  /-- The equipment has ended the connection. -/
  | ending (socket : Nat) (hs : r.socket = some socket) :
      Happens w r .reading (w.hangUp (some socket))
        { r with socket := none, session := r.session.closedByEquipment w.now }
  /-- A timer expires. -/
  | timer (deadline : Nat) (hd : r.session.timers.next? = some deadline)
      (hle : deadline ≤ w.now) :
      Happens w r .timer w { r with session := r.session.tick w.now }

theorem happens_of_read? {socket : Nat} (hs : r.socket = some socket)
    (h : r.read? w socket = some (w', r')) : r.Happens w .reading w' r' := by
  unfold read? at h
  split at h
  · cases h
  next k hk =>
  split at h
  · next hu =>
    cases h
    exact .bytes socket k hs hk (by simpa using hu)
  · split at h
    · cases h
      exact .breakdown socket hs
    · split at h
      · cases h
        exact .ending socket hs
      · cases h

theorem happens_of_handle {event : ReactorEvent} (h : r.handle w event = some (w', r')) :
    r.Happens w event w' r' := by
  cases event with
  | command =>
    simp only [handle] at h
    split at h
    · next c rest _ hi =>
      cases h
      exact .command c rest hi
    · next ho _ hc =>
      cases h
      exact .closed hc ho
    · cases h
  | acceptance =>
    simp only [handle] at h
    split at h
    · next ha =>
      obtain ⟨⟨network, socket⟩, hn, hnext⟩ := Option.map_eq_some_iff.mp h
      cases hnext
      exact .acceptance ha network socket hn
    · cases h
  | connection =>
    simp only [handle] at h
    split at h
    · next socket ha =>
      cases h
      exact .connection socket ha
    · cases h
  | refusal =>
    obtain ⟨attempt, ha, hnext⟩ := Option.map_eq_some_iff.mp h
    cases hnext
    exact .refusal attempt ha
  | reading =>
    obtain ⟨socket, hs, hr⟩ := Option.bind_eq_some_iff.mp h
    exact happens_of_read? hs hr
  | timer =>
    simp only [handle] at h
    split at h
    · next deadline hd =>
      split at h
      · next hle =>
        cases h
        exact .timer deadline hd hle
      · cases h
    · cases h

theorem Happens.around {event : ReactorEvent} (h : r.Happens w event w' r') : w.Around w' := by
  cases h with
  | connection _ _ => exact w.around_hangUp _
  | refusal _ _ => exact w.around_hangUp _
  | breakdown socket _ => exact w.around_hangUp (some socket)
  | ending socket _ => exact w.around_hangUp (some socket)
  | _ => exact ⟨rfl, rfl, rfl⟩

/-- The clock, and whether the host works, are not a reactor's to change. -/
theorem Step.around (h : r.Step w w' after) : w.Around w' := by
  cases h with
  | act ht =>
    obtain ⟨a, rest, -, hact⟩ := take?_eq_some ht
    have haround := around_act (w.tally r.session)
      { r with session := { r.session with outbox := rest, counters := {} } } a
    rw [hact] at haround
    exact ⟨haround.now, haround.alerts, haround.config⟩
  | answer _ => exact ⟨rfl, rfl, rfl⟩
  | handle event _ _ hh => exact (happens_of_handle hh).around

/-- Of a reactor that runs on, an action changes no more than the session, if a frame could not be
sent, and what is held. -/
theorem act_running {a : Action} (h : r.act w a = (w', .running r')) :
    a.isFinal = false ∧ ∃ session socket attempt, r' = { r with session, socket, attempt } ∧
      (session = r.session ∨
        (∃ frame, a = .send frame) ∧ session = r.session.disconnect false w.now) := by
  cases a with
  | send frame =>
    refine ⟨rfl, ?_⟩
    unfold act at h
    dsimp only at h
    split at h
    · cases h
      exact ⟨_, _, _, rfl, .inl rfl⟩
    · split at h
      · cases h
        exact ⟨_, _, _, rfl, .inl rfl⟩
      · cases h
        exact ⟨_, _, _, rfl, .inr ⟨⟨frame, rfl⟩, rfl⟩⟩
  | stopped | terminate _ => cases h
  | connect | close _ | publish _ _ _ | raise _ _ | clear _ | status _ =>
    cases h
    exact ⟨rfl, _, _, _, rfl, .inl rfl⟩

/-- Once all actions have been taken, a reactor attempts to connect only while the link is
connecting. -/
theorem Sound.connecting (h : r.Sound) (ho : r.session.outbox = [])
    (ha : r.attempt.isSome = true) : r.session.connection.link = .connecting := by
  obtain ⟨attempt, ha⟩ := Option.isSome_iff_exists.mp ha
  have hsuits := h.suits
  unfold hold at hsuits
  rw [ho, ha] at hsuits
  exact hsuits

/-- What happens to a reactor that has taken all actions is passed on as an event that its session
admits, unless an attempt is accepted, which it has yet to notice. -/
theorem Happens.session {event : ReactorEvent} (h : r.Happens w event w' r') (hs : r.Sound)
    (ho : r.session.outbox = []) :
    r'.session = r.session ∨ ∃ e : SessionEvent, e.isOpening = false ∧
      r.session.admits true e = true ∧ r'.session = r.session.step w.now e := by
  cases h with
  | command c rest _ =>
    cases c with
    | write ticket name value => exact .inr ⟨.write name value, rfl, rfl, rfl⟩
    | stop => exact .inr ⟨.stop, rfl, rfl, rfl⟩
  | closed _ _ => exact .inr ⟨.stop, rfl, rfl, rfl⟩
  | acceptance _ _ _ _ => exact .inl rfl
  | connection socket ha =>
    have hlink := hs.connecting ho (by rw [ha]; rfl)
    exact .inr ⟨.connected, rfl, by simp [Session.admits, hlink], rfl⟩
  | refusal attempt ha =>
    have hlink := hs.connecting ho (by rw [ha]; rfl)
    exact .inr ⟨.connectFailed, rfl, by simp [Session.admits, hlink], rfl⟩
  | bytes socket k hsocket _ _ =>
    have hlink := hs.connected ho hsocket
    exact .inr ⟨.data _, rfl, by simp [Session.admits, hlink], rfl⟩
  | breakdown socket hsocket =>
    have hlink := hs.connected ho hsocket
    exact .inr ⟨.socketError, rfl, by simp [Session.admits, hlink], rfl⟩
  | ending socket hsocket =>
    have hlink := hs.connected ho hsocket
    exact .inr ⟨.socketEnd, rfl, by simp [Session.admits, hlink], rfl⟩
  | timer _ _ _ => exact .inr ⟨.timer, rfl, rfl, rfl⟩

theorem Step.driven (hs : r.Sound) (h : r.Step w w' (.running r')) :
    r.session.Driven w.now r'.session := by
  cases h with
  | act ht =>
    obtain ⟨a, rest, ho, hact⟩ := take?_eq_some ht
    obtain ⟨ha, session, _, _, rfl, hsame | ⟨⟨frame, rfl⟩, hlost⟩⟩ := act_running hact
    · rw [hsame]
      exact .taken a rest ho ha
    · rw [hlost]
      exact .failed frame rest ho
  | answer _ => exact .counted {}
  | handle event ho _ hh =>
    rcases (happens_of_handle hh).session hs ho with hsame | ⟨e, he, ha, hnext⟩
    · rw [hsame]
      exact .counted r.session.counters
    · rw [hnext]
      exact .event e ho he ha

/-! ### Commands -/

/-- Whether a reactor looks for commands, and may get some. -/
structure Attended (r : Reactor) : Prop where
  inbox : r.inboxClosed = false
  commands : r.commandsOpen = true

/-- What a step of a reactor does about its commands. -/
inductive Heeds (r : Reactor) (now : Nat) : Reactor → Prop
  /-- Nothing. -/
  | nothing {r' : Reactor} (hi : r'.inbox = r.inbox) (hc : r'.inboxClosed = r.inboxClosed)
      (ho : r'.commandsOpen = r.commandsOpen) : Heeds r now r'
  /-- The first one is carried out. -/
  | first (c : Command) (rest : List Command) (h : r.inbox = c :: rest) :
      Heeds r now ({ r with inbox := rest }.command now c)
  /-- No more will come. -/
  | last (h : r.inboxClosed = true) :
      Heeds r now { r with commandsOpen := false, session := r.session.beginStop now }

theorem Step.heeds (h : r.Step w w' (.running r')) : r.Heeds w.now r' := by
  cases h with
  | act ht =>
    obtain ⟨a, rest, -, hact⟩ := take?_eq_some ht
    obtain ⟨-, _, _, _, rfl, -⟩ := act_running hact
    exact .nothing rfl rfl rfl
  | answer _ => exact .nothing rfl rfl rfl
  | handle event _ _ hh =>
    cases happens_of_handle hh with
    | command c rest hi => exact .first c rest hi
    | closed hc _ => exact .last hc
    | _ => exact .nothing rfl rfl rfl

/-- A command to stop waits until it is carried out. -/
theorem Heeds.stop_kept {now : Nat} (h : r.Heeds now r') (hs : .stop ∈ r.inbox) :
    .stop ∈ r'.inbox ∨ r'.session.stopping = true := by
  cases h with
  | nothing hi _ _ => exact .inl (hi ▸ hs)
  | first c rest hi =>
    cases c with
    | write ticket name value =>
      rw [hi] at hs
      exact .inl ((List.mem_cons.mp hs).resolve_left nofun)
    | stop => exact .inr (Session.stopping_beginStop r.session now)
  | last _ => exact .inr (Session.stopping_beginStop r.session now)

theorem Heeds.attended {now : Nat} (h : r.Heeds now r') (ha : r.Attended) : r'.Attended := by
  cases h with
  | nothing _ hc ho => exact ⟨hc.trans ha.inbox, ho.trans ha.commands⟩
  | first c rest _ => cases c <;> exact ⟨ha.inbox, ha.commands⟩
  | last hc =>
    rw [ha.inbox] at hc
    cases hc

end Reactor

end GemLink
