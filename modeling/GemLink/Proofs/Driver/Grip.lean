import GemLink.Proofs.Driver.Calls

/-!
While the link of its session is up, a reactor has a connection: it does not lose one without its
session giving the link up, so that what the session sends is handed to a connection
(`Reactor.Grips`). A session leaves its link up only by doing nothing that touches the connection
(`Session.Clings`), and each step of a reactor keeps the grip (`Reactor.Step.grips`).
-/

namespace GemLink

namespace Session

variable {s t u : Session} {now : Nat} {m : Moment}

/-- Whether a session is open if its link is up. -/
def Open (s : Session) : Prop :=
  s.connection.link = .connected → s.connection.opened = true

/-- Where the link of `t` is up, so was that of `s`, and the actions in between leave what is held
as it is. -/
def Clings (s t : Session) : Prop :=
  ∃ acts, t.outbox = s.outbox ++ acts ∧
    (s.Open → t.Open ∧ (t.connection.link = .connected →
      s.connection.link = .connected ∧ ∀ a ∈ acts, ∀ h : Hold, h.after a = h))

namespace Clings

theorem trans (h : Clings s t) (h' : Clings t u) : Clings s u := by
  obtain ⟨acts, ho, hs⟩ := h
  obtain ⟨more, ho', ht⟩ := h'
  refine ⟨acts ++ more, by rw [ho', ho, List.append_assoc], fun hopen => ?_⟩
  obtain ⟨htopen, hst⟩ := hs hopen
  obtain ⟨huopen, htu⟩ := ht htopen
  refine ⟨huopen, fun hl => ?_⟩
  obtain ⟨htl, hmore⟩ := htu hl
  obtain ⟨hsl, hacts⟩ := hst htl
  exact ⟨hsl, List.forall_mem_append.mpr ⟨hacts, hmore⟩⟩

/-- Actions that have nothing to do with the connection. -/
theorem still {acts : List Action} (ho : t.outbox = s.outbox ++ acts)
    (ha : ∀ a ∈ acts, ∀ h : Hold, h.after a = h)
    (hl : t.connection.link = s.connection.link)
    (hopened : t.connection.opened = s.connection.opened) : Clings s t := by
  refine ⟨acts, ho, fun hopen => ⟨fun h => ?_, fun h => ⟨hl ▸ h, ha⟩⟩⟩
  rw [hopened]
  exact hopen (hl ▸ h)

theorem refl (s : Session) : Clings s s :=
  still (List.append_nil _).symm (List.forall_mem_nil _) rfl rfl

/-- The link is given up. -/
theorem loses {acts : List Action} (ho : t.outbox = s.outbox ++ acts)
    (hl : t.isConnected = false) : Clings s t := by
  have hne : t.connection.link ≠ .connected := beq_eq_false_iff_ne.mp hl
  exact ⟨acts, ho, fun _ => ⟨fun h => absurd h hne, fun h => absurd h hne⟩⟩

end Clings

theorem Deed.clings (h : Deed m s t) (hm : m ≠ .connected) : Clings s t := by
  cases h with
  | shift _ hf _ =>
    have hout : t.outbox = s.outbox := congrArg Face.outbox hf
    exact .still (hout.trans (List.append_nil _).symm) (List.forall_mem_nil _)
      (congrArg Face.link hf) (congrArg Face.opened hf)
  | tell a ha =>
    refine .still rfl ?_ rfl rfl
    rw [List.forall_mem_singleton]
    cases a with
    | publish _ _ _ | raise _ _ | clear _ => exact fun _ => rfl
    | _ => exact absurd ha id
  | answer _ _ _ _ _ _ _ _ _ => exact .still rfl (by simp [Hold.after]) rfl rfl
  | ask _ _ => exact .still rfl (by simp [Hold.after]) rfl rfl
  | follow _ _ _ _ _ _ _ _ _ =>
    rw [publishAlarms_eq]
    refine .still rfl ?_ rfl rfl
    rw [List.forall_mem_append, List.forall_mem_map, List.forall_mem_map]
    exact ⟨fun _ _ _ => rfl, fun _ _ _ => rfl⟩
  | lose graceful now ho hs =>
    rw [disconnect_eq s now ho hs]
    exact .loses rfl rfl
  | finish ho =>
    rw [finishStop_eq s ho]
    exact .loses rfl rfl
  | launch _ =>
    rw [launch_eq]
    exact .loses (List.append_assoc _ _ _) rfl
  | gain hm' _ _ => exact absurd hm' hm
  | forget _ _ => exact .still (List.append_nil _).symm (List.forall_mem_nil _) rfl rfl
  | retry _ _ =>
    rw [reconnect_eq]
    split
    · exact .loses rfl rfl
    · exact .loses rfl rfl
  | hold _ _ _ _ => exact .still (List.append_nil _).symm (List.forall_mem_nil _) rfl rfl
  | halt _ _ ho =>
    rw [finishStop_eq _ (by exact ho)]
    exact .loses rfl rfl
  | retire _ _ _ => exact .still (List.append_nil _).symm (List.forall_mem_nil _) rfl rfl

theorem clings_step (s : Session) (now : Nat) {e : SessionEvent} (he : e ≠ .connected) :
    Clings s (s.step now e) := by
  refine keeps_step Clings.refl Clings.trans (fun s m hm => ?_) s he
  exact keeps_advance s now Clings.refl Clings.trans (fun h => h.clings hm) fun _ =>
    .still (List.append_nil _).symm (List.forall_mem_nil _) rfl rfl

/-- When an attempt has succeeded, what the session then does leaves the connection as it is, as
long as the link stays up. -/
theorem clings_connected (s : Session) (now : Nat) :
    ∃ acts, (s.connected now).outbox = s.outbox ++ acts ∧ (s.Open → (s.connected now).Open ∧
      ((s.connected now).connection.link = .connected →
        ∀ a ∈ acts, ∀ h : Hold, h.after a = h)) := by
  by_cases h : (!s.connection.opened || s.stopping) = true
  · unfold connected
    rw [if_pos h]
    exact ⟨[], (List.append_nil _).symm, fun hopen => ⟨hopen, fun _ => List.forall_mem_nil _⟩⟩
  · obtain ⟨ho, hs⟩ : s.connection.opened = true ∧ s.stopping = false := by simpa using h
    rw [connected_eq s now ho hs]
    generalize hgain : ({ s with timers := _, connection := _, outbox := _ } : Session) = t
    have hopened : t.Open := fun _ => by rw [← hgain]; exact ho
    obtain ⟨news, hnews, hnone⟩ : ∃ news, t.outbox = s.outbox ++ news ∧
        ∀ a ∈ news, ∀ h : Hold, h.after a = h := by
      refine ⟨_, by rw [← hgain], ?_⟩
      rw [List.forall_mem_cons, List.forall_mem_append]
      refine ⟨fun _ => rfl, ?_, List.forall_mem_singleton.mpr fun _ => rfl⟩
      split
      · exact List.forall_mem_nil _
      · exact List.forall_mem_map.mpr fun _ _ _ => rfl
    obtain ⟨acts, hout, hacts⟩ := (deeds_startHandshake t now s.connection.startup.request).keeps
      (R := Clings) Clings.refl Clings.trans (fun h => h.clings (m := .settled) nofun)
    refine ⟨news ++ acts, by rw [hout, hnews, List.append_assoc], fun _ => ?_⟩
    obtain ⟨hopen, hlink⟩ := hacts hopened
    exact ⟨hopen, fun hl => List.forall_mem_append.mpr ⟨hnone, (hlink hl).2⟩⟩

/-- A session that has lost its connection does not take its link to be up. -/
theorem link_disconnect (h : s.Open) (graceful : Bool) (now : Nat) :
    (s.disconnect graceful now).connection.link ≠ .connected := by
  cases ho : s.connection.opened with
  | false =>
    unfold disconnect
    rw [if_pos (by simp [ho])]
    exact fun hl => absurd ((h hl).symm.trans ho) nofun
  | true =>
    cases hs : s.stopping with
    | true =>
      rw [disconnect_of_stopping s now hs, finishStop_eq s ho]
      exact nofun
    | false =>
      rw [disconnect_eq s now ho hs]
      exact nofun

theorem link_closedByEquipment (h : s.Open) (now : Nat) :
    (s.closedByEquipment now).connection.link ≠ .connected := by
  unfold closedByEquipment
  split
  · next hs =>
    rw [← disconnect_of_stopping s now hs false]
    exact link_disconnect h false now
  · exact link_disconnect (s := { s with connection := { s.connection with startup := .select } })
      h false now

end Session

namespace Reactor

variable {w w' : Surroundings} {r r' : Reactor}

/-- While the link is up, a reactor has a connection once all actions have been taken. -/
structure Grips (r : Reactor) : Prop where
  opened : r.session.Open
  holds : r.session.connection.link = .connected → r.hold.afterAll r.session.outbox = .connection

namespace Grips

theorem of_link (h : r.session.connection.link ≠ .connected) : r.Grips :=
  ⟨fun hl => absurd hl h, fun hl => absurd hl h⟩

theorem attempt_eq_none (h : r.Grips) (ho : r.session.outbox = [])
    (hl : r.session.connection.link = .connected) : r.attempt = none := by
  have hholds := h.holds hl
  rw [ho] at hholds
  cases ha : r.attempt with
  | none => rfl
  | some attempt =>
    unfold hold at hholds
    rw [ha] at hholds
    cases hholds

theorem exists_socket (h : r.Grips) (ho : r.session.outbox = [])
    (hl : r.session.connection.link = .connected) : ∃ socket, r.socket = some socket := by
  have hholds := h.holds hl
  have hnone := h.attempt_eq_none ho hl
  rw [ho] at hholds
  cases hs : r.socket with
  | some socket => exact ⟨socket, rfl⟩
  | none =>
    unfold hold at hholds
    rw [hnone, hs] at hholds
    cases hholds

/-- What is known of a reactor is its session and what it holds. -/
theorem congr (h : r.Grips) (hs : r'.session = r.session) (hh : r'.hold = r.hold) : r'.Grips := by
  refine ⟨?_, fun hl => ?_⟩
  · rw [hs]
    exact h.opened
  · rw [hs] at hl ⊢
    rw [hh]
    exact h.holds hl

/-- An event that is not the success of an attempt. -/
theorem learn (h : r.Grips) (now : Nat) (e : SessionEvent) (he : e ≠ .connected)
    (hs : r'.session = r.session.step now e) (hh : r'.hold = r.hold) : r'.Grips := by
  obtain ⟨acts, hout, hacts⟩ := Session.clings_step r.session now he
  obtain ⟨hopen, hlink⟩ := hacts h.opened
  refine ⟨?_, fun hl => ?_⟩
  · rw [hs]
    exact hopen
  · rw [hs] at hl
    obtain ⟨hl, hnone⟩ := hlink hl
    rw [hs, hh, hout, Hold.afterAll_append, h.holds hl]
    exact Hold.afterAll_of_forall hnone _

end Grips

theorem grips_act {a : Action} (hopened : r.session.Open)
    (hh : r.session.connection.link = .connected →
      (r.hold.after a).afterAll r.session.outbox = .connection)
    (h : r.act w a = (w', .running r')) : r'.Grips := by
  cases a with
  | send frame =>
    have hr : r.Grips := ⟨hopened, hh⟩
    unfold act at h
    dsimp only at h
    split at h
    · cases h
      exact hr
    · split at h
      · cases h
        exact hr
      · cases h
        exact .of_link (Session.link_disconnect hopened false w.now)
  | stopped | terminate _ => cases h
  | connect | close _ | publish _ _ _ | raise _ _ | clear _ | status _ =>
    cases h
    exact ⟨hopened, hh⟩

theorem Happens.grips {event : ReactorEvent} (h : r.Happens w event w' r') (hr : r.Grips)
    (ho : r.session.outbox = []) : r'.Grips := by
  cases h with
  | command c rest _ =>
    cases c with
    | write ticket name value => exact hr.learn w.now (.write name value) nofun rfl rfl
    | stop => exact hr.learn w.now .stop nofun rfl rfl
  | closed _ _ => exact hr.learn w.now .stop nofun rfl rfl
  | acceptance ha network socket _ =>
    refine .of_link fun hl => ?_
    rw [hr.attempt_eq_none ho hl] at ha
    cases ha
  | connection socket _ =>
    obtain ⟨acts, hout, hacts⟩ := Session.clings_connected r.session w.now
    obtain ⟨hopen, hnone⟩ := hacts hr.opened
    refine ⟨hopen, fun hl => ?_⟩
    change Hold.connection.afterAll (r.session.connected w.now).outbox = _
    rw [hout, ho, List.nil_append]
    exact Hold.afterAll_of_forall (hnone hl) _
  | refusal attempt _ => exact .of_link (Session.link_disconnect hr.opened false w.now)
  | bytes socket k _ _ _ => exact hr.learn w.now (.data _) nofun rfl rfl
  | breakdown socket _ => exact .of_link (Session.link_disconnect hr.opened false w.now)
  | ending socket _ => exact .of_link (Session.link_closedByEquipment hr.opened w.now)
  | timer _ _ _ => exact hr.learn w.now .timer nofun rfl rfl

/-- A reactor that runs on keeps its grip. -/
theorem Step.grips (h : r.Step w w' (.running r')) (hr : r.Grips) : r'.Grips := by
  cases h with
  | act ht =>
    obtain ⟨a, rest, ho, hact⟩ := take?_eq_some ht
    refine grips_act (r := { r with session := { r.session with outbox := rest, counters := {} } })
      hr.opened (fun hl => ?_) hact
    have hholds := hr.holds hl
    rw [ho] at hholds
    exact hholds
  | answer _ => exact ⟨hr.opened, hr.holds⟩
  | handle event ho _ hh => exact (happens_of_handle hh).grips hr ho

theorem grips_fresh (name path : String) (model : Model) (catalog : Catalog) :
    (fresh name path model catalog).Grips := by
  refine .of_link ?_
  unfold fresh
  dsimp only
  rw [Session.launch_eq]
  exact nofun

end Reactor

end GemLink
