import GemLink.Proofs.Driver.Upkeep

/-!
What is stored of the connection while a reactor runs. A session has it stored that the machine is
connected when it gets a connection, and that it is not when it gives one up; so once its actions
have been taken, what is stored is right, as long as it is open (`Session.Shows`). It is right as
well when the session gives up after too many attempts to connect. The end of a stop stores nothing:
a reactor that has been stopped leaves behind what was stored last (`ReactorTask.Shows`).
-/

namespace GemLink

/-- An entry of two joined rows stands in one of them. -/
theorem cut_append {α : Type} {xs ys before after : List α} {a : α}
    (h : xs ++ ys = before ++ a :: after) :
    (∃ between, xs = before ++ a :: between) ∨
      ∃ early, before = xs ++ early ∧ ys = early ++ a :: after := by
  rcases List.append_eq_append_iff.mp h with hlate | ⟨early, hearly, hlate⟩
  · exact .inr hlate
  · cases early with
    | nil => exact .inr ⟨[], by simpa using hearly.symm, by simpa using hlate.symm⟩
    | cons b between =>
      cases hlate
      exact .inl ⟨between, hearly⟩

namespace Session

variable {s t u : Session} {stored : Option Bool} {now : Nat} {m : Moment}

/-- What is stored once a row of actions has been taken. -/
def storedAfter (stored : Option Bool) (acts : List Action) : Option Bool :=
  (last? Action.status? acts).or stored

theorem storedAfter_append (stored : Option Bool) (acts more : List Action) :
    storedAfter stored (acts ++ more) = storedAfter (storedAfter stored acts) more := by
  unfold storedAfter
  rw [last?_append, Option.or_assoc]

theorem storedAfter_cons (stored : Option Bool) (a : Action) (rest : List Action) :
    storedAfter stored (a :: rest) = storedAfter (a.status?.or stored) rest := by
  rw [← List.singleton_append, storedAfter_append]
  cases a <;> rfl

theorem storedAfter_of_none {acts : List Action} (h : ∀ a ∈ acts, a.status? = none) :
    storedAfter stored acts = stored := by
  unfold storedAfter
  rw [last?_of_none h, Option.none_or]

/-- Whether what is stored, once the actions of a session have been taken, tells rightly whether
there is a connection, as long as the session is open; and whether it tells of none whenever the
session gives up. -/
structure Shows (stored : Option Bool) (s : Session) : Prop where
  right : s.connection.opened = true → storedAfter stored s.outbox = some s.isConnected
  givenUp : ∀ before failures after, s.outbox = before ++ .terminate failures :: after →
    storedAfter stored before = some false

/-- Where nothing is to be stored and there is no connection, it is right to have stored so. -/
theorem shows_of_silent (ha : ∀ a ∈ s.outbox, a.status? = none ∧ a.isTerminate = false)
    (hc : s.isConnected = false) : s.Shows (some false) := by
  refine ⟨fun _ => ?_, fun before failures after ho => ?_⟩
  · rw [storedAfter_of_none fun a hm => (ha a hm).1, hc]
  · have hgiven := (ha (.terminate failures) (by simp [ho])).2
    cases hgiven

theorem Shows.taken (h : s.Shows stored) {a : Action} {rest : List Action}
    (ho : s.outbox = a :: rest) (counters : Counters) :
    { s with outbox := rest, counters }.Shows (a.status?.or stored) := by
  refine ⟨fun hopened => ?_, fun before failures after hrest => ?_⟩
  · have hright := h.right hopened
    rwa [ho, storedAfter_cons] at hright
  · have hcut : rest = before ++ .terminate failures :: after := hrest
    have hgiven := h.givenUp (a :: before) failures after (by rw [ho, hcut, List.cons_append])
    rwa [storedAfter_cons] at hgiven

/-! ## What a session has stored -/

/-- The actions between `s` and `t` store what is right about `t`, if what is right about `s` is
stored, and none of them gives up. -/
def Attests (s t : Session) : Prop :=
  ∃ acts, t.outbox = s.outbox ++ acts ∧ (∀ a ∈ acts, a.isTerminate = false) ∧
    ∀ stored, (s.connection.opened = true → stored = some s.isConnected) →
      t.connection.opened = true → storedAfter stored acts = some t.isConnected

namespace Attests

theorem refl (s : Session) : Attests s s :=
  ⟨[], (List.append_nil _).symm, List.forall_mem_nil _, fun _ h ho => h ho⟩

theorem trans (h : Attests s t) (h' : Attests t u) : Attests s u := by
  obtain ⟨acts, ho, hacts, hs⟩ := h
  obtain ⟨acts', ho', hacts', ht⟩ := h'
  refine ⟨acts ++ acts', by rw [ho', ho, List.append_assoc],
    List.forall_mem_append.mpr ⟨hacts, hacts'⟩, fun stored hstored => ?_⟩
  rw [storedAfter_append]
  exact ht _ (hs stored hstored)

/-- Actions that store nothing, while the link stays where it is. -/
theorem still {acts : List Action} (ho : t.outbox = s.outbox ++ acts)
    (ha : ∀ a ∈ acts, a.status? = none ∧ a.isTerminate = false)
    (hc : t.isConnected = s.isConnected)
    (hopen : t.connection.opened = true → s.connection.opened = true) : Attests s t := by
  refine ⟨acts, ho, fun a hm => (ha a hm).2, fun stored hstored hopened => ?_⟩
  rw [storedAfter_of_none fun a hm => (ha a hm).1, hc]
  exact hstored (hopen hopened)

/-- Actions that store what is right. -/
theorem ends {acts : List Action} (ho : t.outbox = s.outbox ++ acts)
    (ha : ∀ a ∈ acts, a.isTerminate = false)
    (hlast : last? Action.status? acts = some t.isConnected) : Attests s t :=
  ⟨acts, ho, ha, fun stored _ _ => by rw [storedAfter, hlast, Option.some_or]⟩

/-- Actions that leave the session closed. -/
theorem closes {acts : List Action} (ho : t.outbox = s.outbox ++ acts)
    (ha : ∀ a ∈ acts, a.isTerminate = false) (hc : t.connection.opened = false) : Attests s t :=
  ⟨acts, ho, ha, fun _ _ hopened => by rw [hc] at hopened; cases hopened⟩

end Attests

/-- What is stored stays right. -/
theorem Shows.attests (h : s.Shows stored) (ht : Attests s t) : t.Shows stored := by
  obtain ⟨acts, ho, hacts, hright⟩ := ht
  refine ⟨fun hopened => ?_, fun before failures after hcut => ?_⟩
  · rw [ho, storedAfter_append]
    exact hright _ h.right hopened
  · -- The session had given up before, since none of the new actions does so.
    rw [ho] at hcut
    rcases cut_append hcut with ⟨between, hold⟩ | ⟨early, -, hnew⟩
    · exact h.givenUp before failures between hold
    · have hgiven := hacts (.terminate failures) (by simp [hnew])
      cases hgiven

/-- Every deed but the next attempt to connect, which stores nothing, has stored what is right. -/
theorem Deed.attests (h : Deed m s t) (hopening : m ≠ .opened) (hretry : m ≠ .expiry .reconnect) :
    Attests s t := by
  cases h with
  | shift _ hf _ =>
    have hlink : t.connection.link = s.connection.link := congrArg Face.link hf
    have hopened : t.connection.opened = s.connection.opened := congrArg Face.opened hf
    have hout : t.outbox = s.outbox := congrArg Face.outbox hf
    refine .still (hout.trans (List.append_nil _).symm) (List.forall_mem_nil _) ?_ ?_
    · unfold isConnected
      rw [hlink]
    · rw [hopened]
      exact id
  | tell a ha =>
    refine .still rfl (List.forall_mem_singleton.mpr ?_) rfl id
    cases a with
    | publish _ _ _ | raise _ _ | clear _ => exact ⟨rfl, rfl⟩
    | _ => exact absurd ha id
  | answer _ _ _ _ _ _ _ _ _ =>
    exact .still rfl (List.forall_mem_singleton.mpr ⟨rfl, rfl⟩) rfl id
  | ask _ _ => exact .still rfl (List.forall_mem_singleton.mpr ⟨rfl, rfl⟩) rfl id
  | follow _ _ _ _ _ _ _ _ _ =>
    rw [publishAlarms_eq]
    refine .still rfl ?_ rfl id
    rw [List.forall_mem_append, List.forall_mem_map, List.forall_mem_map]
    exact ⟨fun _ _ => ⟨rfl, rfl⟩, fun _ _ => ⟨rfl, rfl⟩⟩
  | lose graceful now ho hs =>
    rw [disconnect_eq s now ho hs]
    exact .ends rfl (by simp [Action.isTerminate]) rfl
  | finish ho =>
    rw [finishStop_eq s ho]
    exact .closes rfl (by simp [Action.isTerminate]) rfl
  | launch hm => exact absurd hm hopening
  | gain _ _ _ =>
    refine .ends rfl ?_ ?_
    · rw [List.forall_mem_cons, List.forall_mem_append]
      refine ⟨rfl, ?_, List.forall_mem_singleton.mpr rfl⟩
      split
      · exact List.forall_mem_nil _
      · exact List.forall_mem_map.mpr fun _ _ => rfl
    · rw [← List.cons_append, last?_append]
      rfl
  | forget _ _ => exact .still (List.append_nil _).symm (List.forall_mem_nil _) rfl id
  | retry hm _ => exact absurd hm hretry
  | hold _ _ _ _ => exact .still (List.append_nil _).symm (List.forall_mem_nil _) rfl id
  | halt _ _ ho =>
    rw [finishStop_eq _ (by exact ho)]
    exact .closes rfl (by simp [Action.isTerminate]) rfl
  | retire _ _ ho => exact .closes (List.append_nil _).symm (List.forall_mem_nil _) ho

theorem attests_advance (s : Session) (now : Nat) (hopening : m ≠ .opened)
    (hretry : m ≠ .expiry .reconnect) : Attests s (s.advance now m) :=
  keeps_advance s now Attests.refl Attests.trans (fun h => h.attests hopening hretry) fun _ =>
    .still (List.append_nil _).symm (List.forall_mem_nil _) rfl id

/-- The next attempt to connect is made, or the session gives up, when there is no connection and so
it is stored. -/
theorem Shows.retry (h : s.Shows stored) (hc : s.Consistent) :
    (s.advance now (.expiry .reconnect)).Shows stored := by
  change (s.expire now .reconnect).Shows stored
  unfold expire
  split
  · next hdue =>
    obtain ⟨hbefore, hafter⟩ := hc.not_connected_reconnect hdue
    have hopened := (hc.sound.reconnect (Timers.isArmed_of_isDue hdue)).2
    have hright : storedAfter stored s.outbox = some false := by rw [h.right hopened, hbefore]
    change ((s.cancel .reconnect).reconnect).Shows stored
    rw [reconnect_eq] at hafter ⊢
    split
    · -- The session gives up, at a moment at which the host has been told of no connection.
      refine ⟨nofun, fun before failures after hcut => ?_⟩
      rcases cut_append hcut with ⟨between, hold⟩ | ⟨early, rfl, hnew⟩
      · exact h.givenUp before failures between hold
      · obtain rfl : early = [] := by
          cases early with
          | nil => rfl
          | cons a rest => simp at hnew
        rwa [List.append_nil]
    · refine h.attests (.still rfl (List.forall_mem_singleton.mpr ⟨rfl, rfl⟩) ?_ id)
      exact hbefore.symm
  · exact h

theorem Shows.advance (h : s.Shows stored) (hc : s.Consistent) (now : Nat) (hm : m ≠ .opened) :
    (s.advance now m).Shows stored := by
  by_cases hretry : m = .expiry .reconnect
  · subst hretry
    exact h.retry hc
  · exact h.attests (attests_advance s now hm hretry)

/-- Whatever comes to an open session when no action is left to be taken. -/
theorem Shows.step (h : s.Shows stored) (hc : s.Consistent) {e : SessionEvent}
    (ha : s.admits true e = true) (he : e.isOpening = false) : (s.step now e).Shows stored := by
  have hkept : (s.step now e).Consistent ∧ (s.step now e).Shows stored :=
    kept_step (I := fun t => t.Consistent ∧ t.Shows stored) ha (fun h => by cases h) he
      (fun t m ht hm hne => ⟨ht.1.advance hm, ht.2.advance ht.1 now hne⟩) ⟨hc, h⟩
  exact hkept.2

theorem Shows.disconnect (h : s.Shows stored) : (s.disconnect false now).Shows stored :=
  h.attests (attests_advance (m := .socketError) s now nofun nofun)

/-- A session that has just been opened attempts to connect. -/
theorem shows_launch (name : String) (model : Model) (catalog : Catalog) :
    (ofCatalog name model catalog).launch.Shows (some false) := by
  rw [launch_eq]
  refine shows_of_silent ?_ rfl
  simp only [ofCatalog, List.nil_append, List.forall_mem_append, List.forall_mem_map,
    List.forall_mem_singleton]
  exact ⟨⟨fun _ _ => ⟨rfl, rfl⟩, fun _ _ => ⟨rfl, rfl⟩⟩, rfl, rfl⟩

end Session

/-! ## Reactors -/

namespace Surroundings

variable {w : Surroundings} {path : String}

/-- What is stored under a path. -/
def stored? (w : Surroundings) (path : String) : Option Bool :=
  w.host.config.get? path

theorem stored?_hangUp (w : Surroundings) (socket? : Option Nat) (path : String) :
    (w.hangUp socket?).stored? path = w.stored? path := by
  cases socket? <;> rfl

theorem stored?_publish (w : Surroundings) (machine : String) (target : Variable) (value : Value)
    (report : Bool) (path : String) :
    (w.publish machine target value report).stored? path = w.stored? path := by
  unfold publish
  dsimp only
  split
  · split <;> rfl
  · split <;> rfl

theorem stored?_storeStatus (h : w.host.configFailing = false) (path : String)
    (connected : Bool) : (w.storeStatus path connected).stored? path = some connected := by
  simp [stored?, storeStatus, onHost, Host.store, Host.note, h, Keyed.get?_insert_self]

end Surroundings

/-- What is stored is what the actions of the session of a reactor make of it; when the reactor has
ended, it is that the machine is not connected, unless the reactor was stopped. -/
def ReactorTask.Shows (path : String) (w : Surroundings) : ReactorTask → Prop
  | .running r => r.statusPath = path ∧ r.session.Shows (w.stored? path)
  | .ended outcome => w.stored? path = some false ∨ outcome = .ok ()

namespace Reactor

variable {w w' : Surroundings} {r : Reactor} {after : ReactorTask} {path : String}

theorem stored?_release (w : Surroundings) (r : Reactor) (path : String) :
    (r.release w).1.stored? path = w.stored? path :=
  (Surroundings.stored?_hangUp _ _ path).trans (w.stored?_hangUp _ path)

/-- Only the actions that store the status change what is stored. -/
theorem stored?_act (hw : w.host.configFailing = false) (r : Reactor) (a : Action) :
    (r.act w a).1.stored? r.statusPath = a.status?.or (w.stored? r.statusPath) := by
  cases a with
  | connect | close _ | stopped | terminate _ => exact stored?_release w r _
  | send frame =>
    unfold act
    dsimp only
    split
    · rfl
    · split
      · rfl
      · exact w.stored?_hangUp (some _) _
  | publish _ _ _ => exact w.stored?_publish _ _ _ _ _
  | raise _ _ => rfl
  | clear _ => rfl
  | status connected => exact Surroundings.stored?_storeStatus hw _ connected

/-- A reactor ends when its session has been stopped, or gives up. -/
theorem act_ended {a : Action} {outcome : Except LinkError Unit}
    (h : r.act w a = (w', .ended outcome)) :
    (a = .stopped ∧ outcome = .ok ()) ∨ ∃ failures, a = .terminate failures := by
  cases a with
  | stopped =>
    cases h
    exact .inl ⟨rfl, rfl⟩
  | terminate failures => exact .inr ⟨failures, rfl⟩
  | send frame =>
    unfold act at h
    dsimp only at h
    split at h
    · cases h
    · split at h <;> cases h
  | connect | close _ | publish _ _ _ | raise _ _ | clear _ | status _ => cases h

/-- Nor does what happens to a reactor change it. -/
theorem Happens.stored? {r' : Reactor} {event : ReactorEvent} (h : r.Happens w event w' r')
    (path : String) : w'.stored? path = w.stored? path ∧ r'.statusPath = r.statusPath := by
  cases h with
  | command c _ _ => cases c <;> exact ⟨rfl, rfl⟩
  | connection _ _ => exact ⟨w.stored?_hangUp _ path, rfl⟩
  | refusal _ _ => exact ⟨w.stored?_hangUp _ path, rfl⟩
  | breakdown socket _ => exact ⟨w.stored?_hangUp (some socket) path, rfl⟩
  | ending socket _ => exact ⟨w.stored?_hangUp (some socket) path, rfl⟩
  | _ => exact ⟨rfl, rfl⟩

/-- The first action of those that are to be taken. -/
theorem shows_take? (hw : w.host.configFailing = false)
    (h : (ReactorTask.running r).Shows path w) (ht : r.take? w = some (w', after)) :
    after.Shows path w' := by
  obtain ⟨rfl, hshows⟩ := h
  obtain ⟨a, rest, ho, hact⟩ := take?_eq_some ht
  have htaken := hshows.taken ho {}
  have hstored := stored?_act (w := w.tally r.session) hw
    { r with session := { r.session with outbox := rest, counters := {} } } a
  rw [hact] at hstored
  cases after with
  | running r' =>
    obtain ⟨-, session, _, _, rfl, hsame | ⟨-, hlost⟩⟩ := act_running hact
    · refine ⟨rfl, ?_⟩
      rw [hstored, hsame]
      exact htaken
    · refine ⟨rfl, ?_⟩
      rw [hstored, hlost]
      exact htaken.disconnect
  | ended outcome =>
    rcases act_ended hact with ⟨-, hok⟩ | ⟨failures, rfl⟩
    · exact .inr hok
    · exact .inl (hstored.trans (hshows.givenUp [] failures rest ho))

/-- Whatever a reactor does, what is stored is what the actions of its session make of it. -/
theorem Step.shows (hs : r.Step w w' after) (hw : w.host.configFailing = false)
    (hr : r.Sound) (hc : r.session.Consistent) (h : (ReactorTask.running r).Shows path w) :
    after.Shows path w' := by
  cases hs with
  | act ht => exact shows_take? hw h ht
  | answer _ => exact ⟨h.1, h.2.right, h.2.givenUp⟩
  | handle event ho _ hh =>
    have hhappens := happens_of_handle hh
    obtain ⟨hstored, hpath⟩ := hhappens.stored? path
    refine ⟨hpath.trans h.1, ?_⟩
    rw [hstored]
    rcases hhappens.session hr ho with hsame | ⟨e, he, ha, hnext⟩
    · rw [hsame]
      exact h.2
    · rw [hnext]
      exact h.2.step hc ha he

end Reactor

end GemLink
