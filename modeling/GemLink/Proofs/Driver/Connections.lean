import GemLink.Proofs.Driver.Hold
import GemLink.Proofs.Driver.Steps

/-!
Who holds the connections between driver and equipment. A reactor holds at most one at a time, and
what it holds suits where its session believes the link to be (`Reactor.Sound`); as long as it runs,
all connections of which the driver's end is open are its own, and once it has ended there are none
(`ReactorTask.Owns`). Each step of a reactor keeps that (`Reactor.Step.owns`), also one at which a
connection fails while actions that were meant for it are still to be taken.
-/

namespace GemLink

/-- A reading of the entries of a list does not see a change of something else. -/
theorem map_modify_of_eq {α β : Type} {f : α → α} {g : α → β} (h : ∀ a, g (f a) = g a) (l : List α)
    (i : Nat) : (l.modify i f).map g = l.map g := by
  refine List.ext_getElem? fun k => ?_
  rw [List.getElem?_map, List.getElem?_map, List.getElem?_modify]
  by_cases hk : i = k
  · cases l[k]? <;> simp [hk, h]
  · simp [hk]

/-! ## Open connections -/

namespace Network

/-- Whether the driver holds its end of a connection open. -/
def IsHeld (n : Network) (socket : Nat) : Prop :=
  (n.sockets.map Socket.driverOpen)[socket]? = some true

variable {n n' : Network} {socket k : Nat}

theorem isHeld_of_getElem? {s : Socket} (hk : n.sockets[k]? = some s) (hs : s.driverOpen = true) :
    n.IsHeld k := by
  rw [IsHeld, List.getElem?_map, hk]
  exact congrArg some hs

theorem isHeld_congr (h : n'.sockets.map Socket.driverOpen = n.sockets.map Socket.driverOpen) :
    n'.IsHeld k ↔ n.IsHeld k := by
  rw [IsHeld, IsHeld, h]

theorem map_driverOpen_map {f : Socket → Socket} (hf : ∀ k, (f k).driverOpen = k.driverOpen)
    (sockets : List Socket) :
    (sockets.map f).map Socket.driverOpen = sockets.map Socket.driverOpen := by
  rw [List.map_map]
  exact List.map_congr_left fun k _ => hf k

theorem isHeld_hangUp : (n.hangUp socket).IsHeld k ↔ n.IsHeld k ∧ k ≠ socket := by
  simp only [IsHeld, hangUp, List.getElem?_map, List.getElem?_modify]
  by_cases h : socket = k
  · subst h
    cases n.sockets[socket]? <;> simp
  · simp [h, Ne.symm h]

theorem isHeld_accept? (h : n.accept? = some (n', socket)) :
    n'.IsHeld k ↔ n.IsHeld k ∨ k = socket := by
  unfold accept? at h
  split at h
  · cases h
    have hmap : (n.sockets ++ [({} : Socket)]).map Socket.driverOpen =
        n.sockets.map Socket.driverOpen ++ [true] := List.map_append
    rw [IsHeld, IsHeld, hmap]
    rcases Nat.lt_trichotomy k n.sockets.length with hk | rfl | hk
    · rw [List.getElem?_append_left (by simpa using hk)]
      simp [Nat.ne_of_lt hk]
    · rw [List.getElem?_append_right (by simp)]
      simp
    · rw [List.getElem?_eq_none (by simp; omega), List.getElem?_eq_none (by simp; omega)]
      simp [Nat.ne_of_gt hk]
  · cases h

theorem isHeld_send? {bytes : Bytes} (h : n.send? socket bytes = some n') :
    n'.IsHeld k ↔ n.IsHeld k := by
  unfold send? at h
  split at h
  · split at h
    · cases h
    · split at h
      · cases h
        rfl
      · cases h
        rfl
  · cases h
    rfl

/-- The equipment does not open or close the driver's end. -/
theorem Disturbed.isHeld (h : n.Disturbed n') : n'.IsHeld k ↔ n.IsHeld k := by
  cases h with
  | reachable _ => rfl
  | listening _ => rfl
  | sent bytes =>
    refine isHeld_congr (map_driverOpen_map (fun k => ?_) _)
    split <;> rfl
  | stalled _ => exact isHeld_congr (map_driverOpen_map (fun k => by rfl) _)
  | closed => exact isHeld_congr (map_driverOpen_map (fun k => by rfl) _)
  | broken =>
    refine isHeld_congr (map_driverOpen_map (fun k => ?_) _)
    split <;> rfl

end Network

namespace Surroundings

variable {w : Surroundings} {k : Nat}

theorem isHeld_hangUp {socket? : Option Nat} :
    (w.hangUp socket?).network.IsHeld k ↔ w.network.IsHeld k ∧ socket? ≠ some k := by
  cases socket? with
  | none => simp [hangUp]
  | some socket =>
    rw [hangUp, Network.isHeld_hangUp]
    simp [eq_comm]

theorem network_publish (w : Surroundings) (machine : String) (target : Variable) (value : Value)
    (report : Bool) : (w.publish machine target value report).network = w.network := by
  unfold publish
  dsimp only
  split
  · split <;> rfl
  · split <;> rfl

end Surroundings

/-! ## Reactors -/

namespace Reactor

variable {w w' : Surroundings} {r r' : Reactor} {after : ReactorTask} {k : Nat}

/-- Whether a connection is a reactor's, perhaps unnoticed. -/
def Holds (r : Reactor) (k : Nat) : Prop :=
  r.socket = some k ∨ r.attempt = some (.accepted k)

/-- What a reactor holds. -/
def hold (r : Reactor) : Hold :=
  match r.attempt, r.socket with
  | some _, _ => .attempt
  | none, some _ => .connection
  | none, none => .nothing

/-- What a reactor holds suits the link of its session, once all actions have been taken; and it
does not attempt to connect while it has a connection. -/
structure Sound (r : Reactor) : Prop where
  ready : r.session.Ready
  suits : (r.hold.afterAll r.session.outbox).Suits r.session.connection.link
  alone : r.attempt.isSome = true → r.socket = none

end Reactor

/-- A reactor is sound and all connections are its own; once it has ended there are none. -/
def ReactorTask.Owns (w : Surroundings) : ReactorTask → Prop
  | .running r => r.Sound ∧ ∀ k, w.network.IsHeld k → r.Holds k
  | .ended _ => ∀ k, ¬ w.network.IsHeld k

namespace Reactor

variable {w w' : Surroundings} {r r' : Reactor} {after : ReactorTask} {k : Nat}

/-- What has been let go of is not held. -/
theorem not_isHeld_release (h : ∀ k, w.network.IsHeld k → r.Holds k) :
    ¬ (r.release w).1.network.IsHeld k := by
  unfold release
  rw [Surroundings.isHeld_hangUp, Surroundings.isHeld_hangUp]
  rintro ⟨⟨hk, hs⟩, ha⟩
  rcases h k hk with h | h
  · exact hs h
  · exact ha (by rw [h]; rfl)

/-- A session may go on, if it keeps what is held and the link together. -/
theorem Sound.goOn (h : r.Sound) {s : Session} (hr : s.Ready) (ht : Session.Ties r.session s) :
    ({ r with session := s } : Reactor).Sound := by
  obtain ⟨acts, hout, hacts⟩ := ht
  refine ⟨hr, ?_, h.alone⟩
  change (r.hold.afterAll s.outbox).Suits s.connection.link
  rw [hout, Hold.afterAll_append]
  exact hacts _ h.suits

/-- A reactor may lose what it holds, and its session go on. -/
theorem Sound.lose (h : r.Sound) {s : Session} (hr : s.Ready) (ht : Session.Ties r.session s) :
    ({ r with socket := none, attempt := none, session := s } : Reactor).Sound := by
  obtain ⟨acts, hout, hacts⟩ := ht
  refine ⟨hr, ?_, fun _ => rfl⟩
  change (Hold.nothing.afterAll s.outbox).Suits s.connection.link
  rw [hout, Hold.afterAll_append]
  exact hacts _ h.suits.nothing_afterAll

theorem Sound.attempt_eq_none (h : r.Sound) {socket : Nat} (hs : r.socket = some socket) :
    r.attempt = none := by
  cases ha : r.attempt with
  | none => rfl
  | some _ =>
    have hnone := h.alone (by rw [ha]; rfl)
    rw [hs] at hnone
    cases hnone

/-- What a reactor holds is one connection at most. -/
theorem Sound.holds_unique (h : r.Sound) {j : Nat} (hj : r.Holds j) (hk : r.Holds k) : j = k := by
  have hone : ∀ {i i'}, r.socket = some i → r.attempt ≠ some (.accepted i') := by
    intro i i' hs ha
    rw [h.attempt_eq_none hs] at ha
    cases ha
  rcases hj with hj | hj <;> rcases hk with hk | hk
  · exact Option.some.inj (hj.symm.trans hk)
  · exact absurd hk (hone hj)
  · exact absurd hj (hone hk)
  · cases hj.symm.trans hk
    rfl

/-- Once all actions have been taken, a reactor has a connection only while the link is up. -/
theorem Sound.connected (h : r.Sound) (hout : r.session.outbox = []) {socket : Nat}
    (hs : r.socket = some socket) : r.session.connection.link = .connected := by
  have hsuits := h.suits
  unfold hold at hsuits
  rw [hout, h.attempt_eq_none hs, hs] at hsuits
  exact hsuits

/-- After an action, what is held and the actions that are left suit the link, if they did with the
action before them. -/
theorem owns_act {a : Action} (hr : r.session.Ready)
    (hs : ((r.hold.after a).afterAll r.session.outbox).Suits r.session.connection.link)
    (ha : r.attempt.isSome = true → r.socket = none)
    (ho : ∀ k, w.network.IsHeld k → r.Holds k) :
    (r.act w a).2.Owns (r.act w a).1 := by
  have hstill : (r.hold.after a = r.hold) → ∀ w' : Surroundings, w'.network = w.network →
      (ReactorTask.running r).Owns w' := by
    intro h w' hw
    rw [h] at hs
    refine ⟨⟨hr, hs, ha⟩, fun k hk => ho k ?_⟩
    rwa [hw] at hk
  cases a with
  | connect =>
    exact ⟨⟨hr, hs, fun _ => rfl⟩, fun k hk => absurd hk (not_isHeld_release ho)⟩
  | close _ =>
    exact ⟨⟨hr, hs, fun _ => rfl⟩, fun k hk => absurd hk (not_isHeld_release ho)⟩
  | stopped => exact fun k => not_isHeld_release ho
  | terminate _ => exact fun k => not_isHeld_release ho
  | publish v value report => exact hstill rfl _ (w.network_publish _ _ _ _)
  | raise _ _ => exact hstill rfl _ rfl
  | clear _ => exact hstill rfl _ rfl
  | status _ => exact hstill rfl _ rfl
  | send frame =>
    have hsound : r.Sound := ⟨hr, hs, ha⟩
    unfold act
    cases hsocket : r.socket with
    | none => exact hstill rfl w rfl
    | some socket =>
      dsimp only
      cases hsend : w.network.send? socket frame with
      | some network =>
        refine ⟨hsound, fun k hk => ho k ?_⟩
        exact (Network.isHeld_send? hsend).mp hk
      | none =>
        have hattempt := hsound.attempt_eq_none hsocket
        have hlost := hsound.lose (hr.step w.now .socketError)
          (Session.ties_step r.session w.now (e := .socketError) nofun)
        refine ⟨?_, fun k hk => ?_⟩
        · rw [hattempt] at *
          exact hlost
        · obtain ⟨hk, hne⟩ := Surroundings.isHeld_hangUp.mp hk
          rcases ho k hk with h | h
          · exact absurd (hsocket.symm.trans h) hne
          · rw [hattempt] at h
            cases h

/-- Letting go of its only connection leaves a reactor with none. -/
theorem Sound.isHeld_hangUp (h : r.Sound) {socket : Nat} (hs : r.socket = some socket)
    (hk : (w.hangUp (some socket)).network.IsHeld k) : w.network.IsHeld k ∧ ¬ r.Holds k := by
  obtain ⟨hk, hne⟩ := Surroundings.isHeld_hangUp.mp hk
  refine ⟨hk, ?_⟩
  rintro (h' | h')
  · exact hne (hs.symm.trans h')
  · rw [h.attempt_eq_none hs] at h'
    cases h'

end Reactor

namespace ReactorTask

variable {w w' : Surroundings} {r r' : Reactor} {after : ReactorTask}

theorem Owns.take? (h : (running r).Owns w) (ht : r.take? w = some (w', after)) :
    after.Owns w' := by
  obtain ⟨⟨hr, hs, ha⟩, ho⟩ := h
  obtain ⟨a, rest, hout, hact⟩ := Reactor.take?_eq_some ht
  have howns := Reactor.owns_act (w := w.tally r.session) (a := a)
    (r := { r with session := { r.session with outbox := rest, counters := {} } })
    ⟨hr.connecting, hr.reconnect⟩ (by rw [hout] at hs; exact hs) ha ho
  rw [hact] at howns
  exact howns

theorem Owns.answer (h : (running r).Owns w) : (r.answer w).2.Owns (r.answer w).1 := by
  obtain ⟨⟨hr, hs, ha⟩, ho⟩ := h
  exact ⟨⟨⟨hr.connecting, hr.reconnect⟩, hs, ha⟩, ho⟩

/-- An event of the session changes nothing about who holds the connections, unless it is the
success of an attempt. -/
theorem Owns.learn (h : (running r).Owns w) (now : Nat) (e : SessionEvent) (he : e ≠ .connected)
    (hs : r'.session = r.session.step now e) (hk : r'.socket = r.socket)
    (ha : r'.attempt = r.attempt) : (running r').Owns w := by
  obtain ⟨hsound, ho⟩ := h
  obtain ⟨hr, hsuits, halone⟩ := hsound.goOn (hsound.ready.step now e)
    (Session.ties_step r.session now he)
  obtain ⟨session, _, _, _, _, _, _, _, _⟩ := r'
  cases hs
  cases hk
  cases ha
  exact ⟨⟨hr, hsuits, halone⟩, ho⟩

/-- Nor does the loss of what is held, if the session learns of it. -/
theorem Owns.loss (h : (running r).Owns w) (now : Nat) (e : SessionEvent) (he : e ≠ .connected)
    (hs : r'.session = r.session.step now e) (hk : r'.socket = none) (ha : r'.attempt = none)
    (hw : ∀ k, w'.network.IsHeld k → w.network.IsHeld k ∧ ¬ r.Holds k) :
    (running r').Owns w' := by
  obtain ⟨hsound, ho⟩ := h
  obtain ⟨hr, hsuits, halone⟩ := hsound.lose (hsound.ready.step now e)
    (Session.ties_step r.session now he)
  obtain ⟨session, _, _, _, _, _, _, _, _⟩ := r'
  cases hs
  cases hk
  cases ha
  exact ⟨⟨hr, hsuits, halone⟩, fun k hk => absurd (ho k (hw k hk).1) (hw k hk).2⟩

/-- Whatever a reactor reads, all connections are its own. -/
theorem Owns.read? (h : (running r).Owns w) {socket : Nat} (hs : r.socket = some socket)
    (hr : r.read? w socket = some (w', r')) : (running r').Owns w' := by
  have hsound := h.1
  have hnone := hsound.attempt_eq_none hs
  unfold Reactor.read? at hr
  split at hr
  · cases hr
  next k _ =>
  split at hr
  · cases hr
    have hgo : (running { r with
        session := r.session.receive (k.unread.take readChunk) w.now }).Owns w :=
      h.learn w.now (.data _) nofun rfl rfl rfl
    have hsame : (w.network.sockets.modify socket fun k =>
        { k with unread := k.unread.drop readChunk }).map Socket.driverOpen =
        w.network.sockets.map Socket.driverOpen :=
      map_modify_of_eq (fun _ => by rfl) _ _
    exact ⟨hgo.1, fun j hj => hgo.2 j ((Network.isHeld_congr hsame).mp hj)⟩
  · split at hr
    · cases hr
      exact h.loss w.now .socketError nofun rfl rfl hnone
        fun k => hsound.isHeld_hangUp hs
    · split at hr
      · cases hr
        exact h.loss w.now .socketEnd nofun rfl rfl hnone
          fun k => hsound.isHeld_hangUp hs
      · cases hr

/-- An attempt that the equipment accepts brings a connection that is the reactor's. -/
theorem Owns.acceptance (h : (running r).Owns w) (ha : r.attempt = some .underway)
    {network : Network} {socket : Nat} (hn : w.network.accept? = some (network, socket)) :
    (running { r with attempt := some (.accepted socket) }).Owns { w with network } := by
  obtain ⟨⟨hr, hs, halone⟩, ho⟩ := h
  have hnone : r.socket = none := halone (by rw [ha]; rfl)
  refine ⟨⟨hr, ?_, fun _ => hnone⟩, fun k hk => ?_⟩
  · unfold Reactor.hold at hs
    rw [ha] at hs
    exact hs
  · rcases (Network.isHeld_accept? hn).mp hk with hk | rfl
    · rcases ho k hk with h | h
      · rw [hnone] at h
        cases h
      · rw [ha] at h
        cases h
    · exact .inr rfl

/-- The reactor notices it once no action is left to be taken, when the link still is connecting. -/
theorem Owns.connection (h : (running r).Owns w) {socket : Nat}
    (ha : r.attempt = some (.accepted socket)) (hout : r.session.outbox = []) :
    (running { r with
      attempt := none, socket := some socket, session := r.session.connected w.now }).Owns w := by
  obtain ⟨⟨hr, hs, halone⟩, ho⟩ := h
  have hnone : r.socket = none := halone (by rw [ha]; rfl)
  have hlink : r.session.connection.link = .connecting := by
    unfold Reactor.hold at hs
    rw [ha, hout] at hs
    exact hs
  obtain ⟨acts, hacts, hsuits⟩ := Session.ties_connected hr hlink w.now
  refine ⟨⟨hr.step w.now .connected, ?_, nofun⟩, fun k hk => ?_⟩
  · rw [hout, List.nil_append] at hacts
    change (Hold.connection.afterAll (r.session.connected w.now).outbox).Suits _
    rw [hacts]
    exact hsuits
  · rcases ho k hk with h | h
    · rw [hnone] at h
      cases h
    · rw [ha] at h
      cases h
      exact .inl rfl

/-- Whatever happens to a reactor that waits, all connections are its own. -/
theorem Owns.handle (h : (running r).Owns w) (hout : r.session.outbox = [])
    {event : ReactorEvent} (hh : r.handle w event = some (w', r')) : (running r').Owns w' := by
  cases event with
  | command =>
    simp only [Reactor.handle] at hh
    split at hh
    · next c rest _ _ =>
      cases hh
      cases c with
      | write ticket name value =>
        exact h.learn w.now (.write name value) nofun rfl rfl rfl
      | stop => exact h.learn w.now .stop nofun rfl rfl rfl
    · cases hh
      exact h.learn w.now .stop nofun rfl rfl rfl
    · cases hh
  | acceptance =>
    simp only [Reactor.handle] at hh
    split at hh
    · next ha =>
      obtain ⟨⟨network, socket⟩, haccept, hnext⟩ := Option.map_eq_some_iff.mp hh
      cases hnext
      exact h.acceptance ha haccept
    · cases hh
  | connection =>
    simp only [Reactor.handle] at hh
    split at hh
    · next ha =>
      cases hh
      rw [h.1.alone (by rw [ha]; rfl)]
      exact h.connection ha hout
    · cases hh
  | refusal =>
    obtain ⟨attempt, ha, hnext⟩ := Option.map_eq_some_iff.mp hh
    cases hnext
    have hnone := h.1.alone (by rw [ha]; rfl)
    refine h.loss w.now .socketError nofun rfl hnone rfl fun k hk => ?_
    obtain ⟨hk, hne⟩ := Surroundings.isHeld_hangUp.mp hk
    refine ⟨hk, ?_⟩
    rintro (h' | h')
    · rw [hnone] at h'
      cases h'
    · rw [ha] at h'
      exact hne (by rw [Option.some.inj h']; rfl)
  | reading =>
    obtain ⟨socket, hs, hr⟩ := Option.bind_eq_some_iff.mp hh
    exact h.read? hs hr
  | timer =>
    simp only [Reactor.handle] at hh
    split at hh
    · split at hh
      · cases hh
        exact h.learn w.now .timer nofun rfl rfl rfl
      · cases hh
    · cases hh

end ReactorTask

/-- Each step of a reactor leaves it the connections, or none if it ends. -/
theorem Reactor.Step.owns {w w' : Surroundings} {r : Reactor} {after : ReactorTask}
    (h : (ReactorTask.running r).Owns w) (hs : r.Step w w' after) : after.Owns w' := by
  cases hs with
  | act ht => exact h.take? ht
  | answer _ => exact h.answer
  | handle event hout _ hh => exact h.handle hout hh

end GemLink
