import GemLink.Driver.Lifecycle
import GemLink.Proofs.Session.Deeds

/-!
What a reactor holds of a connection, against where its session believes the link to be. A session
appends the actions that bring the two together: once they have been taken, a reactor makes an
attempt only while the link is connecting, and holds a connection only while the link is up
(`Hold.Suits`). Whatever a session does keeps that (`ties_step`), the success of an attempt apart,
at which the reactor gets hold of the connection (`ties_connected`).
-/

namespace GemLink

/-- What a reactor holds. -/
inductive Hold where
  /-- No connection, and none is attempted. -/
  | nothing
  /-- An attempt to connect. -/
  | attempt
  /-- A connection. -/
  | connection

namespace Hold

/-- What is held after an action has been taken. -/
def after (h : Hold) : Action → Hold
  | .connect => .attempt
  | .close _ | .stopped | .terminate _ => .nothing
  | .send _ | .publish _ _ _ | .raise _ _ | .clear _ | .status _ => h

/-- What is held after a row of actions has been taken. -/
def afterAll (h : Hold) (acts : List Action) : Hold :=
  acts.foldl after h

/-- Whether what is held suits where a session believes the link to be. -/
def Suits : Hold → LinkState → Prop
  | .nothing, _ => True
  | .attempt, link => link = .connecting
  | .connection, link => link = .connected

variable {h : Hold} {acts : List Action}

theorem suits_nothing (link : LinkState) : nothing.Suits link :=
  trivial

theorem afterAll_append (h : Hold) (acts acts' : List Action) :
    h.afterAll (acts ++ acts') = (h.afterAll acts).afterAll acts' :=
  List.foldl_append

theorem afterAll_of_forall (ha : ∀ a ∈ acts, ∀ h : Hold, h.after a = h) (h : Hold) :
    h.afterAll acts = h := by
  induction acts with
  | nil => rfl
  | cons a rest ih =>
    rw [List.forall_mem_cons] at ha
    change (h.after a).afterAll rest = h
    rw [ha.1]
    exact ih ha.2

/-- Who has lost hold of what he held ends up with nothing, or where he would have ended up. -/
theorem afterAll_nothing (h : Hold) (acts : List Action) :
    nothing.afterAll acts = nothing ∨ nothing.afterAll acts = h.afterAll acts := by
  induction acts generalizing h with
  | nil => exact .inl rfl
  | cons a rest ih =>
    cases a with
    | connect => exact .inr rfl
    | close _ | stopped | terminate _ => exact .inr rfl
    | send _ | publish _ _ _ | raise _ _ | clear _ | status _ => exact ih h

theorem Suits.nothing_afterAll {link : LinkState} (hs : (h.afterAll acts).Suits link) :
    (nothing.afterAll acts).Suits link := by
  rcases afterAll_nothing h acts with hn | hn
  · rw [hn]
    exact suits_nothing link
  · rw [hn]
    exact hs

end Hold

namespace Session

variable {s t u : Session} {now : Nat} {m : Moment}

/-- Whatever suits the link of `s` suits that of `t`, once the actions in between have been
taken. -/
def Ties (s t : Session) : Prop :=
  ∃ acts, t.outbox = s.outbox ++ acts ∧
    ∀ h : Hold, h.Suits s.connection.link → (h.afterAll acts).Suits t.connection.link

namespace Ties

theorem refl (s : Session) : Ties s s :=
  ⟨[], (List.append_nil _).symm, fun _ => id⟩

theorem trans (h : Ties s t) (h' : Ties t u) : Ties s u := by
  obtain ⟨acts, ho, hs⟩ := h
  obtain ⟨acts', ho', hs'⟩ := h'
  refine ⟨acts ++ acts', by rw [ho', ho, List.append_assoc], fun h hh => ?_⟩
  rw [Hold.afterAll_append]
  exact hs' _ (hs h hh)

/-- Actions that have nothing to do with the connection, while the link stays where it is. -/
theorem still {acts : List Action} (ho : t.outbox = s.outbox ++ acts)
    (ha : ∀ a ∈ acts, ∀ h : Hold, h.after a = h)
    (hl : t.connection.link = s.connection.link) : Ties s t := by
  refine ⟨acts, ho, fun h hh => ?_⟩
  rw [Hold.afterAll_of_forall ha, hl]
  exact hh

/-- Actions that end with what is known to be held. -/
theorem ends {acts : List Action} (ho : t.outbox = s.outbox ++ acts)
    (ha : ∀ h : Hold, (h.afterAll acts).Suits t.connection.link) : Ties s t :=
  ⟨acts, ho, fun h _ => ha h⟩

end Ties

/-- Every deed keeps what is held and the link together, except that a connection is there. -/
theorem Deed.ties (h : Deed m s t) (hm : m ≠ .connected) : Ties s t := by
  cases h with
  | shift _ hf _ =>
    have hout : t.outbox = s.outbox := congrArg Face.outbox hf
    exact .still (hout.trans (List.append_nil _).symm) (by simp) (congrArg Face.link hf)
  | tell a ha =>
    refine .still rfl ?_ rfl
    rw [List.forall_mem_singleton]
    cases a with
    | publish _ _ _ | raise _ _ | clear _ => exact fun _ => rfl
    | _ => exact absurd ha id
  | answer _ _ _ _ _ _ _ _ _ => exact .still rfl (by simp [Hold.after]) rfl
  | ask _ _ => exact .still rfl (by simp [Hold.after]) rfl
  | follow _ _ _ _ _ _ _ _ _ =>
    rw [publishAlarms_eq]
    refine .still rfl ?_ rfl
    rw [List.forall_mem_append, List.forall_mem_map, List.forall_mem_map]
    exact ⟨fun _ _ _ => rfl, fun _ _ _ => rfl⟩
  | lose graceful now ho hs =>
    rw [disconnect_eq s now ho hs]
    exact .ends rfl fun _ => Hold.suits_nothing _
  | finish ho =>
    rw [finishStop_eq s ho]
    exact .ends rfl fun _ => Hold.suits_nothing _
  | launch _ =>
    rw [launch_eq]
    refine .ends (List.append_assoc _ _ _) fun h => ?_
    rw [Hold.afterAll_append]
    rfl
  | gain hm' _ _ => exact absurd hm' hm
  | forget _ _ => exact .still (List.append_nil _).symm (by simp) rfl
  | retry _ _ =>
    rw [reconnect_eq]
    split
    · exact .ends rfl fun _ => Hold.suits_nothing _
    · exact .ends rfl fun _ => rfl
  | hold _ _ _ _ => exact .still (List.append_nil _).symm (by simp) rfl
  | halt _ _ ho =>
    rw [finishStop_eq _ (by exact ho)]
    exact .ends rfl fun _ => Hold.suits_nothing _
  | retire _ _ _ => exact .still (List.append_nil _).symm (by simp) rfl

theorem ties_advance (s : Session) (now : Nat) (hm : m ≠ .connected) :
    Ties s (s.advance now m) :=
  keeps_advance s now Ties.refl Ties.trans (fun h => h.ties hm) fun _ =>
    .still (List.append_nil _).symm (by simp) rfl

/-- What is kept at all moments but the success of an attempt is kept by all events but that. -/
theorem keeps_step {R : Session → Session → Prop} (hrefl : ∀ s, R s s)
    (htrans : ∀ {s t u}, R s t → R t u → R s u)
    (hadvance : ∀ (s : Session) (m : Moment), m ≠ .connected → R s (s.advance now m)) (s : Session)
    {e : SessionEvent} (he : e ≠ .connected) : R s (s.step now e) := by
  have hne : ∀ m ∈ s.moments now e, m ≠ .connected := by
    cases e with
    | connected => exact absurd rfl he
    | data received =>
      simp only [moments, List.forall_mem_cons, List.forall_mem_append, List.forall_mem_map]
      exact ⟨by simp, fun _ _ => by simp, by simp⟩
    | timer => exact List.forall_mem_map.mpr fun _ _ => by simp
    | _ => exact List.forall_mem_singleton.mpr (by simp)
  rw [step_eq_foldl]
  generalize s.moments now e = ms at hne
  induction ms generalizing s with
  | nil => exact hrefl s
  | cons m rest ih =>
    rw [List.forall_mem_cons] at hne
    exact htrans (hadvance s m hne.1) (ih _ hne.2)

/-- So does every event, the success of an attempt apart. -/
theorem ties_step (s : Session) (now : Nat) {e : SessionEvent} (he : e ≠ .connected) :
    Ties s (s.step now e) :=
  keeps_step Ties.refl Ties.trans (fun s _ hm => ties_advance s now hm) s he

theorem Ready.step (h : s.Ready) (now : Nat) (event : SessionEvent) : (s.step now event).Ready := by
  rw [step_eq_foldl]
  generalize s.moments now event = ms
  induction ms generalizing s with
  | nil => exact h
  | cons m rest ih => exact ih (h.advance now m)

/-- When an attempt has succeeded, the connection suits the link. -/
theorem ties_connected (h : s.Ready) (hl : s.connection.link = .connecting) (now : Nat) :
    ∃ acts, (s.connected now).outbox = s.outbox ++ acts ∧
      (Hold.connection.afterAll acts).Suits (s.connected now).connection.link := by
  obtain ⟨ho, hs⟩ := h.connecting hl
  rw [connected_eq s now ho hs]
  generalize hgain : ({ s with timers := _, connection := _, outbox := _ } : Session) = t
  have hlink : t.connection.link = .connected := by rw [← hgain]
  obtain ⟨news, hnews, hnone⟩ : ∃ news, t.outbox = s.outbox ++ news ∧
      ∀ a ∈ news, ∀ h : Hold, h.after a = h := by
    refine ⟨_, by rw [← hgain], ?_⟩
    rw [List.forall_mem_cons, List.forall_mem_append]
    refine ⟨fun _ => rfl, ?_, List.forall_mem_singleton.mpr fun _ => rfl⟩
    split
    · exact List.forall_mem_nil _
    · exact List.forall_mem_map.mpr fun _ _ _ => rfl
  obtain ⟨acts, hout, hacts⟩ := (deeds_startHandshake t now s.connection.startup.request).keeps
    (R := Ties) Ties.refl Ties.trans (fun h => h.ties (m := .settled) nofun)
  refine ⟨news ++ acts, by rw [hout, hnews, List.append_assoc], ?_⟩
  rw [Hold.afterAll_append, Hold.afterAll_of_forall hnone]
  exact hacts .connection hlink

end Session

end GemLink
