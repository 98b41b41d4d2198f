import GemLink.Proofs.Session.Polls
import GemLink.Proofs.Session.Tidings
import Mathlib.Data.List.Chain

/-!
When the host hears whether the machine is connected. The variables that tell it receive a truth
value only when the connection comes up, unless the host knows, and when the report that the machine
is disconnected is due; `Shift` lists what a moment does to that report. While the session has not
given up, the report is set for the delay after the first failure or loss that nothing has settled
(`Debounced`), so that further failures do not move it and a connection calls it off
(`disconnection_debounced`).
-/

namespace GemLink

namespace Passage

/-- The truth values that a passage hands to the host for a variable. -/
def shows (v : Variable) (p : Passage) : List Bool :=
  p.actions.filterMap (Action.truth? v)

/-- Whether the session gives up at a passage, having failed to connect too often. -/
def ends (p : Passage) : Bool :=
  p.actions.any Action.isTerminate

/-- Whether a failure or loss is settled for a variable: the connection comes up, or the host hears
that the machine is disconnected. -/
def settles (v : Variable) (p : Passage) : Bool :=
  p.gains || (p.shows v).contains false

theorem settles_eq_false {v : Variable} {p : Passage} (hg : p.gains = false)
    (hs : p.shows v = []) : p.settles v = false := by
  simp [settles, hg, hs]

end Passage

/-- The truth values that passages hand to the host for a variable. -/
def shown (v : Variable) (past : List Passage) : List Bool :=
  past.flatMap (Passage.shows v)

theorem shown_concat (v : Variable) (past : List Passage) (p : Passage) :
    shown v (past ++ [p]) = shown v past ++ p.shows v := by
  simp [shown]

/-- The time of the first failure or loss that is not settled. -/
def firstLoss? (v : Variable) (past : List Passage) : Option Nat :=
  past.foldl (fun lost p =>
    if p.settles v then none else if p.loses then lost.or (some p.now) else lost) none

theorem firstLoss?_concat (v : Variable) (past : List Passage) (p : Passage) :
    firstLoss? v (past ++ [p]) =
      if p.settles v then none
      else if p.loses then (firstLoss? v past).or (some p.now) else firstLoss? v past := by
  unfold firstLoss?
  rw [List.foldl_append]
  rfl

/-- A variable that receives values of the equipment is asked of it. -/
theorem Catalog.role_of_reads {vs : List Variable} {c : Catalog} {v : Variable}
    (h : ofVariables vs = .ok c) (hr : c.Reads v) : v.role ≠ .unasked := by
  intro hrole
  rcases hr with ⟨request, hp⟩ | ⟨group, hg, hv⟩
  · have hpolled := role_of_mem_polled h hp
    rw [hrole] at hpolled
    cases request <;> cases hpolled
  · have hreported := role_of_mem_group h hg hv
    rw [hrole] at hreported
    cases hreported

theorem Catalog.machineConnected_of_mem_connected {vs : List Variable} {c : Catalog} {v : Variable}
    (h : ofVariables vs = .ok c) (hv : v ∈ c.connected) : v.machineConnected = true := by
  obtain ⟨-, rfl⟩ := ofVariables_eq_ok_iff.mp h
  exact (List.mem_filter.mp hv).2

/-- A variable that shows whether the machine is connected receives no values of the equipment. -/
theorem Catalog.not_mem_connected_of_reads {vs : List Variable} {c : Catalog} {v : Variable}
    (h : ofVariables vs = .ok c) (hr : c.Reads v) : v ∉ c.connected := fun hv =>
  role_of_reads h hr (Variable.role_of_machineConnected (machineConnected_of_mem_connected h hv))

namespace Session

/-- Whether a session has failed to connect too often. -/
def terminated (s : Session) : Bool :=
  s.outbox.any Action.isTerminate

/-- The session has given up: it is not open, though it has attempted to connect. -/
structure Gone (s : Session) : Prop where
  closed : s.connection.opened = false
  tried : s.connection.attempts ≠ 1

variable {P : Variable → Prop} {s₀ s t : Session} {past : List Passage} {now : Nat} {m : Moment}
  {acts : List Action} {v : Variable}

theorem shows_advance (h : (s.advance now m).outbox = s.outbox ++ acts) (v : Variable) :
    Passage.shows v ⟨s, now, m⟩ = acts.filterMap (Action.truth? v) := by
  unfold Passage.shows
  rw [actions_advance h]

theorem ends_advance (h : (s.advance now m).outbox = s.outbox ++ acts) :
    Passage.ends ⟨s, now, m⟩ = acts.any Action.isTerminate := by
  unfold Passage.ends
  rw [actions_advance h]

theorem ends_eq_false (h : (s.advance now m).outbox = s.outbox ++ acts)
    (ha : ∀ a ∈ acts, a.isTerminate = false) : Passage.ends ⟨s, now, m⟩ = false := by
  rw [ends_advance h, List.any_eq_false]
  intro a hm
  simp [ha a hm]

variable (now) in
theorem Consistent.terminated_advance (hc : s.Consistent) (hm : s.Permits m) :
    (s.advance now m).terminated = (s.terminated || Passage.ends ⟨s, now, m⟩) := by
  obtain ⟨acts, ho, -⟩ := course_advance hc now hm
  unfold terminated
  rw [ends_advance ho, ho, List.any_append]

theorem truths_pushes (s : Session) (b : Bool) (v : Variable) :
    (s.pushes b).filterMap (Action.truth? v) = List.replicate (s.catalog.connected.count v) b := by
  unfold pushes
  induction s.catalog.connected with
  | nil => rfl
  | cons w rest ih =>
    rw [List.map_cons, List.filterMap_cons, ih, List.count_cons]
    by_cases hw : w = v
    · simp [Action.truth?, hw, List.replicate_succ]
    · simp [Action.truth?, hw]

/-! ## What a moment does to the report -/

/-- What a passage does to the report that the machine is disconnected, which comes after a delay,
and what the host hears by the variables that tell of it. -/
inductive Shift (connected : List Variable) (delay : Nat) (p : Passage) : Prop
  /-- Nothing. -/
  | kept (hg : p.gains = false) (hl : p.loses = false)
      (hv : ∀ v ∈ connected, p.shows v = [])
      (hr : p.after.connection.reported = p.before.connection.reported)
      (hd : p.after.timers.disconnectReport = p.before.timers.disconnectReport)
      (hn : ∀ deadline, p.after.timers.reconnect = some deadline →
        p.before.timers.reconnect = some deadline)
      (he : p.ends = false) (ho : p.before.Gone → p.after.Gone)
  /-- The connection comes up, which calls the report off; the host hears of it unless it knows. -/
  | up (hm : p.moment = .connected) (hg : p.gains = true) (hl : p.loses = false)
      (hv : ∀ v ∈ connected, p.shows v =
        if p.before.connection.reported then []
        else List.replicate (connected.count v) true)
      (hr : p.after.connection.reported = true) (hd : p.after.timers.disconnectReport = none)
      (he : p.ends = false) (ho : ¬ p.before.Gone)
  /-- An attempt fails or the connection is lost: the report is set unless it is set already. -/
  | lost (hg : p.gains = false) (hl : p.loses = true) (hdown : p.after.isConnected = false)
      (hv : ∀ v ∈ connected, p.shows v = [])
      (hr : p.after.connection.reported = p.before.connection.reported)
      (hd : p.after.timers.disconnectReport =
        some (p.before.timers.disconnectReport.getD (p.now + delay)))
      (hn : p.after.timers.reconnect = some (p.now + reconnectDelay))
      (he : p.ends = false) (ho : ¬ p.before.Gone)
  /-- The report is due. -/
  | reported (hm : p.moment = .expiry .disconnectReport)
      (hdue : p.before.timers.isDue p.now .disconnectReport = true)
      (hg : p.gains = false) (hl : p.loses = false)
      (hv : ∀ v ∈ connected,
        p.shows v = List.replicate (connected.count v) false)
      (hr : p.after.connection.reported = false) (hd : p.after.timers.disconnectReport = none)
      (hn : p.after.timers.reconnect = p.before.timers.reconnect)
      (he : p.ends = false) (ho : p.before.Gone → p.after.Gone)
  /-- The session gives up, which clears the report as well. -/
  | failed (hm : p.moment = .expiry .reconnect)
      (hdue : p.before.timers.isDue p.now .reconnect = true)
      (hg : p.gains = false) (hl : p.loses = false) (hdown : p.after.isConnected = false)
      (hv : ∀ v ∈ connected, p.shows v = [])
      (hr : p.after.connection.reported = p.before.connection.reported)
      (hd : p.after.timers.disconnectReport = none) (hn : p.after.timers.reconnect = none)
      (he : p.ends = true)
      (ho : p.after.Gone)

theorem truths_of_discreet (h : ∀ a ∈ acts, a.Discreet (· ∈ s.catalog.connected)) :
    ∀ v ∈ s.catalog.connected, acts.filterMap (Action.truth? v) = [] :=
  fun v hv => List.filterMap_eq_nil_iff.mpr fun a ha => (h a ha).truth v hv

theorem not_gone_of_opened (h : s.connection.opened = true) : ¬ s.Gone := fun hgone => by
  have hclosed := hgone.closed
  simp [h] at hclosed

theorem Unseen.shift (h : Unseen (· ∈ s.catalog.connected) s (s.advance now m)) (hc : s.Consistent)
    (hf : m.isFailure = false) :
    Shift s.catalog.connected s.settings.disconnectDelay ⟨s, now, m⟩ := by
  obtain ⟨acts, ho, ha⟩ := h.actions
  refine .kept (Passage.gains_eq_false h.isConnected)
    (Passage.loses_eq_false hf fun hup => h.isConnected.trans hup) (fun v hv => ?_) h.reported
    h.report (fun _ hn => h.reconnect.symm.trans hn)
    (ends_eq_false ho fun a hm => (ha a hm).goesOn) fun hg => ⟨h.opened.trans hg.closed, ?_⟩
  · rw [shows_advance ho, truths_of_discreet ha v hv]
  · -- without a connection no communication is established
    have hdown : s.connection.link ≠ .connected := fun hl =>
      not_gone_of_opened (hc.sound.opened (by simp [hl])) hg
    exact fun htried => hg.tried ((h.attempts hdown).symm.trans htried)

theorem shift_reportDisconnected (hm : m = .expiry .disconnectReport)
    (hdue : s.timers.isDue now .disconnectReport = true)
    (ht : s.advance now m = (s.cancel .disconnectReport).reportDisconnected) :
    Shift s.catalog.connected s.settings.disconnectDelay ⟨s, now, m⟩ := by
  rw [reportDisconnected_eq] at ht
  have ho : (s.advance now m).outbox = s.outbox ++ s.pushes false := by
    rw [ht]
    rfl
  have hlink : (s.advance now m).isConnected = s.isConnected := by
    rw [ht]
    rfl
  refine .reported hm hdue (Passage.gains_eq_false hlink)
    (Passage.loses_eq_false (by rw [hm]; rfl) fun hup => hlink.trans hup) (fun v hv => ?_) ?_ ?_ ?_
    (ends_eq_false ho fun a hm => (pushes_untold s false a hm).2.2) fun hg => ⟨?_, ?_⟩
  · rw [shows_advance ho, truths_pushes]
  · simp only [Passage.after, ht]
  · simp only [Passage.after, ht]
    rfl
  · simp only [Passage.after, ht]
    rfl
  · simp only [Passage.after, ht]
    exact hg.closed
  · simp only [Passage.after, ht]
    exact hg.tried

/-- The next attempt is made, or the session gives up. -/
theorem Consistent.shift_reconnect (hc : s.Consistent) (hm : m = .expiry .reconnect)
    (hdue : s.timers.isDue now .reconnect = true)
    (ht : s.advance now m = (s.cancel .reconnect).reconnect) :
    Shift s.catalog.connected s.settings.disconnectDelay ⟨s, now, m⟩ := by
  obtain ⟨hbefore, hafter⟩ := hc.not_connected_reconnect hdue
  rw [← ht] at hafter
  have hlink : (s.advance now m).isConnected = s.isConnected := hafter.trans hbefore.symm
  have hg : Passage.gains ⟨s, now, m⟩ = false := Passage.gains_eq_false hlink
  have hl : Passage.loses ⟨s, now, m⟩ = false :=
    Passage.loses_eq_false (by rw [hm]; rfl) fun hup => hlink.trans hup
  rw [reconnect_eq] at ht
  split at ht
  · next hmax =>
    have ho : (s.advance now m).outbox = s.outbox ++ [.terminate s.connection.attempts] := by
      rw [ht]
      rfl
    refine .failed hm hdue hg hl hafter (fun v hv => ?_) ?_ ?_ ?_ ?_ ⟨?_, ?_⟩
    · rw [shows_advance ho]
      rfl
    · simp only [Passage.after, ht]
      rfl
    · simp only [Passage.after, ht]
    · simp only [Passage.after, ht]
    · rw [ends_advance ho]
      rfl
    · simp only [Passage.after, ht]
    · simp only [Passage.after, ht]
      have hmax' : maxReconnectAttempts < s.connection.attempts + 1 := hmax
      change s.connection.attempts + 1 ≠ 1
      unfold maxReconnectAttempts at hmax'
      omega
  · have ho : (s.advance now m).outbox = s.outbox ++ [.connect] := by
      rw [ht]
      rfl
    have hopen := (hc.sound.reconnect (Timers.isArmed_of_isDue hdue)).2
    refine .kept hg hl (fun v hv => ?_) ?_ ?_ (fun _ hn => ?_)
      (ends_eq_false ho (by simp [Action.isTerminate])) fun hgone =>
        absurd hgone (not_gone_of_opened hopen)
    · rw [shows_advance ho]
      rfl
    · simp only [Passage.after, ht]
      rfl
    · simp only [Passage.after, ht]
      rfl
    · simp only [Passage.after, ht] at hn
      cases hn

variable (now) in
/-- What a permitted moment of a consistent session does to the report until a stop begins. -/
theorem shift_advance (hc : s.Consistent) (hs : s.stopping = false)
    (hr : ∀ v, s.catalog.Reads v → v ∉ s.catalog.connected) (hm : s.Permits m) (hstop : m ≠ .stop) :
    Shift s.catalog.connected s.settings.disconnectDelay ⟨s, now, m⟩ := by
  cases bulletin_advance (P := (· ∈ s.catalog.connected)) now hc hs hr hm hstop with
  | unseen hf hu => exact hu.shift hc hf
  | reported hm' hdue ht => exact shift_reportDisconnected hm' hdue ht
  | reconnected hm' hdue ht => exact hc.shift_reconnect hm' hdue ht
  | launched hm' hu hcon ht ho =>
    obtain ⟨acts, ho, ha⟩ := ho
    have hlink : (s.advance now m).isConnected = s.isConnected := by
      unfold isConnected
      rw [hcon, hu.connection]
      rfl
    refine .kept (Passage.gains_eq_false hlink)
      (Passage.loses_eq_false (by rw [hm']; rfl) fun h => hlink.trans h) (fun v hv => ?_) ?_ ?_
      (fun _ hn => ?_) (ends_eq_false ho fun a hm => (ha a hm).goesOn) fun hg => ?_
    · rw [shows_advance ho, truths_of_discreet ha v hv]
    · simp [Passage.after, hcon, hu.connection]
    · simp [Passage.after, ht]
    · simpa [Passage.after, ht] using hn
    · exact absurd (by rw [hu.connection]) hg.tried
  | connected hm' hl hup hrep hp hd ho =>
    obtain ⟨acts, ho, ha⟩ := ho
    refine .up hm' (by simp [Passage.gains, Passage.after, isConnected, hl, hup])
      (Passage.loses_eq_false (by rw [hm']; rfl) fun _ => isConnected_iff.mpr hup)
      (fun v hv => ?_) hrep hd (ends_eq_false ho ?_)
      (not_gone_of_opened (hc.sound.opened (by simp [hl])))
    · rw [shows_advance ho, List.filterMap_cons_none rfl, List.filterMap_append,
        List.filterMap_cons_none rfl, truths_of_discreet ha v hv, List.append_nil]
      split
      · rfl
      · exact truths_pushes s true v
    · rw [List.forall_mem_cons, List.forall_mem_append, List.forall_mem_cons]
      refine ⟨rfl, ?_, rfl, fun a hm => (ha a hm).goesOn⟩
      split
      · simp
      · exact fun a hm => (pushes_untold s true a hm).2.2
  | lost hf hdown hrep hp hd hn ho =>
    obtain ⟨acts, graceful, ho, ha⟩ := ho
    have hafter : (s.advance now m).isConnected = false := by simp [isConnected, hdown]
    have hopen : s.connection.opened = true := by
      rcases hf with ⟨-, hl⟩ | ⟨-, hl⟩ <;> exact hc.sound.opened (by simp [hl])
    refine .lost (by simp [Passage.gains, Passage.after, hafter]) ?_ hafter (fun v hv => ?_) hrep hd hn
      (ends_eq_false ho ?_) (not_gone_of_opened hopen)
    · rcases hf with ⟨hf, -⟩ | ⟨-, hl⟩
      · simp [Passage.loses, hf]
      · simp [Passage.loses, Passage.after, hafter, isConnected_iff.mpr hl]
    · rw [shows_advance ho, List.filterMap_append, truths_of_discreet ha v hv]
      rfl
    · rw [List.forall_mem_append]
      exact ⟨fun a hm => (ha a hm).goesOn, by simp [Action.isTerminate]⟩

variable (now) in
theorem Ongoing.shift (h : Ongoing s₀ s) (hr : ∀ v, s₀.catalog.Reads v → v ∉ s₀.catalog.connected)
    (hm : s.Permits m) (hstop : m ≠ .stop) :
    Shift s₀.catalog.connected s₀.settings.disconnectDelay ⟨s, now, m⟩ := by
  have hshift := shift_advance now h.consistent h.running (h.catalog ▸ hr) hm hstop
  rwa [h.catalog, h.settings] at hshift

/-! ## Runs -/

/-- What the host has heard by the variables that tell whether the machine is connected: each has
received the same row of reports, no two of which in a row say that it is, and the last of which
says so if `reported`. A variable that is listed several times receives each report so often. -/
def Informed (connected : List Variable) (past : List Passage) (reported : Bool) : Prop :=
  ∃ reports : List Bool, reports.IsChain (fun a b => (a && b) = false) ∧
    (reports.getLast? = some true ↔ reported = true) ∧
    ∀ v ∈ connected, shown v past = reports.flatMap (List.replicate (connected.count v))

namespace Informed

variable {connected : List Variable} {reported : Bool} {p : Passage}

theorem quiet (h : Informed connected past reported) (hv : ∀ v ∈ connected, p.shows v = []) :
    Informed connected (past ++ [p]) reported := by
  obtain ⟨reports, hchain, hlast, hshown⟩ := h
  refine ⟨reports, hchain, hlast, fun v hc => ?_⟩
  rw [shown_concat, hv v hc, List.append_nil, hshown v hc]

/-- The host hears of the machine again, and that it is connected only if it does not know. -/
theorem told (h : Informed connected past reported) {b : Bool} (hb : b = true → reported = false)
    (hv : ∀ v ∈ connected, p.shows v = List.replicate (connected.count v) b) :
    Informed connected (past ++ [p]) b := by
  obtain ⟨reports, hchain, hlast, hshown⟩ := h
  refine ⟨reports ++ [b], ?_, ?_, fun v hc => ?_⟩
  · rw [List.isChain_append]
    refine ⟨hchain, List.isChain_singleton b, fun x hx y hy => ?_⟩
    obtain rfl : b = y := by simpa using hy
    cases b with
    | false => exact Bool.and_false x
    | true =>
      cases x with
      | false => rfl
      | true => simp [hlast.mp hx] at hb
  · rw [List.getLast?_concat, Option.some_inj]
  · rw [shown_concat, hv v hc, hshown v hc, List.flatMap_append, List.flatMap_singleton]

end Informed

/-- What holds of a session that began as `s₀` and has this past: what the host has heard, when the
report is set, and that it is set no more once the session has given up. -/
structure Debounced (s₀ : Session) (past : List Passage) (s : Session) : Prop
    extends Ongoing s₀ s where
  informed : Informed s₀.catalog.connected past s.connection.reported
  known : s.isConnected = true →
    s.connection.reported = true ∧ s.timers.disconnectReport = none
  givenUp : s.terminated = true → s.Gone ∧ s.timers.disconnectReport = none
  pending : s.terminated = false → ∀ v ∈ s₀.catalog.connected,
    s.timers.disconnectReport = (firstLoss? v past).map (· + s₀.settings.disconnectDelay)

theorem Unopened.debounced (hu : s.Unopened) (ho : s.outbox = []) (hs : s.stopping = false) :
    Debounced s [] s where
  toDescends := hu.descends
  settings := rfl
  running := hs
  informed := ⟨[], .nil, by simp [hu.connection], fun v _ => rfl⟩
  known h := by simp [isConnected, hu.connection] at h
  givenUp h := by simp [terminated, ho] at h
  pending _ v _ := by
    rw [hu.timers]
    rfl

theorem Debounced.advance (h : Debounced s₀ past s)
    (hr : ∀ v, s₀.catalog.Reads v → v ∉ s₀.catalog.connected) (hm : s.Permits m)
    (hstop : m ≠ .stop) : Debounced s₀ (past ++ [⟨s, now, m⟩]) (s.advance now m) := by
  have hnext : Ongoing s₀ (s.advance now m) := h.toOngoing.advance hm hstop
  -- a connection that did not come up was there before
  have hwas : Passage.gains ⟨s, now, m⟩ = false → (s.advance now m).isConnected = true →
      s.isConnected = true := fun hg hup => by
    simpa [Passage.gains, Passage.after, hup] using hg
  have hterm := h.consistent.terminated_advance now hm
  cases h.toOngoing.shift now hr hm hstop with
  | kept hg hl hv hrep hd _ he ho =>
    rw [he, Bool.or_false] at hterm
    refine ⟨hnext, hrep ▸ h.informed.quiet hv, fun hup => ?_, fun hover => ?_, fun hover v hc => ?_⟩
    · obtain ⟨hknown, hnone⟩ := h.known (hwas hg hup)
      exact ⟨hrep.trans hknown, hd.trans hnone⟩
    · obtain ⟨hgone, hnone⟩ := h.givenUp (hterm.symm.trans hover)
      exact ⟨ho hgone, hd.trans hnone⟩
    · rw [firstLoss?_concat, Passage.settles_eq_false hg (hv v hc), hl]
      exact hd.trans (h.pending (hterm.symm.trans hover) v hc)
  | up _ hg hl hv hrep hd he ho =>
    rw [he, Bool.or_false] at hterm
    refine ⟨hnext, ?_, fun _ => ⟨hrep, hd⟩, fun hover => ?_, fun hover v hc => ?_⟩
    · cases hknown : s.connection.reported with
      | true =>
        have hquiet : ∀ v ∈ s₀.catalog.connected, Passage.shows v ⟨s, now, m⟩ = [] :=
          fun v hc => (hv v hc).trans (if_pos hknown)
        exact (hrep.trans hknown.symm) ▸ h.informed.quiet hquiet
      | false =>
        exact hrep ▸ h.informed.told (fun _ => hknown)
          fun v hc => (hv v hc).trans (if_neg (by simp [hknown]))
    · exact absurd (h.givenUp (hterm.symm.trans hover)).1 ho
    · rw [firstLoss?_concat, Passage.settles, hg]
      exact hd
  | lost hg hl hdown hv hrep hd _ he ho =>
    rw [he, Bool.or_false] at hterm
    refine ⟨hnext, hrep ▸ h.informed.quiet hv, fun hup => ?_, fun hover => ?_, fun hover v hc => ?_⟩
    · rw [show (s.advance now m).isConnected = false from hdown] at hup
      cases hup
    · exact absurd (h.givenUp (hterm.symm.trans hover)).1 ho
    · have hold := h.pending (hterm.symm.trans hover) v hc
      rw [firstLoss?_concat, Passage.settles_eq_false hg (hv v hc), hl]
      refine hd.trans ?_
      rw [show (Passage.before ⟨s, now, m⟩).timers.disconnectReport = _ from hold]
      cases firstLoss? v past <;> rfl
  | reported hm' hdue hg hl hv hrep hd _ he ho =>
    rw [he, Bool.or_false] at hterm
    obtain ⟨deadline, hset, -⟩ := Timers.deadline?_of_isDue hdue
    have hset' : s.timers.disconnectReport ≠ none :=
      Option.ne_none_iff_exists'.mpr ⟨deadline, hset⟩
    refine ⟨hnext, ?_, fun hup => ?_, fun hover => ?_, fun hover v hc => ?_⟩
    · exact hrep ▸ h.informed.told (b := false) (by simp) hv
    · exact absurd (h.known (hwas hg hup)).2 hset'
    · exact absurd (h.givenUp (hterm.symm.trans hover)).2 hset'
    · have hpos := List.count_pos_iff.mpr hc
      have hset : Passage.settles v ⟨s, now, m⟩ = true := by
        simp [Passage.settles, hv v hc, hpos.ne']
      rw [firstLoss?_concat, hset]
      exact hd
  | failed hm' hdue hg hl hdown hv hrep hd _ he ho =>
    rw [he, Bool.or_true] at hterm
    refine ⟨hnext, hrep ▸ h.informed.quiet hv, fun hup => ?_, fun _ => ⟨ho, hd⟩, fun hover => ?_⟩
    · rw [show (s.advance now m).isConnected = false from hdown] at hup
      cases hup
    · rw [hterm] at hover
      cases hover

/-- While the machine counts as connected and its link does not come up anew, the host hears
nothing but that it is disconnected. -/
theorem Ongoing.hushed (hr : ∀ v, s₀.catalog.Reads v → v ∉ s₀.catalog.connected)
    (hv : v ∈ s₀.catalog.connected) {ps : List Passage} (hchain : Chain s ps t)
    (hstop : ∀ q ∈ ps, q.moment ≠ .stop)
    (hquiet : ∀ q ∈ ps, q.gains = false ∧ false ∉ q.shows v)
    (h : Ongoing s₀ s) (hknown : s.connection.reported = true) :
    Ongoing s₀ t ∧ t.connection.reported = true ∧ ∀ q ∈ ps, q.shows v = [] := by
  have hnil : Ongoing s₀ s ∧ s.connection.reported = true ∧
      ∀ q ∈ ([] : List Passage), q.shows v = [] := ⟨h, hknown, by simp⟩
  refine hchain.record_of (Q := fun q => q.moment ≠ .stop ∧ q.gains = false ∧ false ∉ q.shows v)
    (I := fun ps t => Ongoing s₀ t ∧ t.connection.reported = true ∧ ∀ q ∈ ps, q.shows v = [])
    ?_ (fun q hq => ⟨hstop q hq, hquiet q hq⟩) hnil
  rintro ps t now m ⟨ht, hk, hps⟩ hm ⟨hstop, hg', hs'⟩
  refine ⟨ht.advance hm hstop, ?_⟩
  have hnext : (t.advance now m).connection.reported = true ∧ Passage.shows v ⟨t, now, m⟩ = [] := by
    cases ht.shift now hr hm hstop with
    | kept _ _ hs hrep => exact ⟨hrep.trans hk, hs v hv⟩
    | up _ hg => simp [hg'] at hg
    | lost _ _ _ hs hrep => exact ⟨hrep.trans hk, hs v hv⟩
    | reported _ _ _ _ hs =>
      have hpos := List.count_pos_iff.mpr hv
      simp [hs v hv, hpos.ne'] at hs'
    | failed _ _ _ _ _ hs hrep => exact ⟨hrep.trans hk, hs v hv⟩
  refine ⟨hnext.1, ?_⟩
  rw [List.forall_mem_append, List.forall_mem_singleton]
  exact ⟨hps, hnext.2⟩

/-- What the host hears of the machine at a passage with this past. -/
theorem Debounced.reports_down (h : Debounced s₀ past s)
    (hr : ∀ v, s₀.catalog.Reads v → v ∉ s₀.catalog.connected)
    (hv : v ∈ s₀.catalog.connected) (hm : s.Permits m) (hstop : m ≠ .stop)
    (hs : false ∈ Passage.shows v ⟨s, now, m⟩) :
    m = .expiry .disconnectReport ∧ s.isConnected = false ∧
      (s.advance now m).isConnected = false ∧
      ∃ lost, firstLoss? v past = some lost ∧
        s.timers.disconnectReport = some (lost + s₀.settings.disconnectDelay) ∧
        lost + s₀.settings.disconnectDelay ≤ now := by
  cases h.toOngoing.shift now hr hm hstop with
  | reported hm' hdue hg =>
    obtain ⟨deadline, hset, hdl⟩ := Timers.deadline?_of_isDue hdue
    have hset' : s.timers.disconnectReport = some deadline := hset
    have hdown : s.isConnected = false := by
      cases hc : s.isConnected with
      | false => rfl
      | true =>
        have hnone := (h.known hc).2
        rw [hset'] at hnone
        cases hnone
    have hlive : s.terminated = false := by
      cases ht : s.terminated with
      | false => rfl
      | true =>
        have hnone := (h.givenUp ht).2
        rw [hset'] at hnone
        cases hnone
    refine ⟨hm', hdown, by simpa [Passage.gains, Passage.after, hdown] using hg, ?_⟩
    have hpending := h.pending hlive v hv
    rw [hset', eq_comm, Option.map_eq_some_iff] at hpending
    obtain ⟨lost, hlost, rfl⟩ := hpending
    exact ⟨lost, hlost, hset', hdl⟩
  | up _ _ _ hs' =>
    rw [hs' v hv] at hs
    split at hs
    · cases hs
    · exact absurd (List.eq_of_mem_replicate hs) (by decide)
  | kept _ _ hs' => simp [hs' v hv] at hs
  | lost _ _ _ hs' => simp [hs' v hv] at hs
  | failed _ _ _ _ _ hs' => simp [hs' v hv] at hs

/-- The connection that is lost comes back before the host hears of the loss: then it does not hear
of it at all, and the report is called off. -/
theorem Debounced.comes_back {between : List Passage} {l : Passage}
    (h : Debounced s₀ past l.before) (hr : ∀ v, s₀.catalog.Reads v → v ∉ s₀.catalog.connected)
    (hv : v ∈ s₀.catalog.connected) (hchain : Chain l.before (l :: between) s)
    (hstop : ∀ q ∈ l :: between, q.moment ≠ .stop) (hup : l.before.isConnected = true)
    (hlost : l.loses = true) (hquiet : ∀ q ∈ between, q.gains = false ∧ false ∉ q.shows v)
    (hm : s.Permits m) (hne : m ≠ .stop) (hgain : Passage.gains ⟨s, now, m⟩ = true) :
    (∀ q ∈ l :: between ++ [⟨s, now, m⟩], q.shows v = []) ∧
      (s.advance now m).timers.deadline? .disconnectReport = none := by
  obtain ⟨u, now', m'⟩ := l
  have hm' : u.Permits m' := by
    cases hchain with
    | cons hm' _ => exact hm'
  have hfirst : Passage.gains ⟨u, now', m'⟩ = false ∧ false ∉ Passage.shows v ⟨u, now', m'⟩ := by
    cases h.toOngoing.shift now' hr hm' (hstop _ List.mem_cons_self) with
    | lost hg _ _ hs => exact ⟨hg, by simp [hs v hv]⟩
    | kept _ hl => simp [hl] at hlost
    | up _ _ hl => simp [hl] at hlost
    | reported _ _ _ hl => simp [hl] at hlost
    | failed _ _ _ hl => simp [hl] at hlost
  obtain ⟨hgoing, hknown, hsilent⟩ := Ongoing.hushed hr hv hchain hstop
    (List.forall_mem_cons.mpr ⟨hfirst, hquiet⟩) h.toOngoing (h.known hup).1
  rw [List.forall_mem_append, List.forall_mem_singleton]
  cases hgoing.shift now hr hm hne with
  | up _ _ _ hs _ hd => exact ⟨⟨hsilent, (hs v hv).trans (if_pos hknown)⟩, hd⟩
  | kept hg => simp [hg] at hgain
  | lost hg => simp [hg] at hgain
  | reported _ _ hg => simp [hg] at hgain
  | failed _ _ hg => simp [hg] at hgain

/-- The reports that the machine is connected or disconnected are debounced. At every point of a
legal run until a stop begins, the variables that tell of it have received one row of reports, no
two in a row of which say that it is connected. That it is not is reported only without a connection
and only by a timer, which is set for the delay after the first failure or loss that is not settled;
until the session gives up, nothing moves it. A connection that comes back before that report is due
calls it off, and the host hears neither of the loss nor of the return. -/
theorem disconnection_debounced (machine : String) (model : Model) (vs : List Variable)
    (catalog : Catalog) (hcat : Catalog.ofVariables vs = .ok catalog) (run : List Occurrence)
    (h : (ofCatalog machine model catalog).Legal run) :
    let s₀ := ofCatalog machine model catalog
    let delay := s₀.settings.disconnectDelay
    (∀ past future, s₀.history (beforeStop run) = past ++ future →
      ∃ reports : List Bool, reports.IsChain (fun a b => (a && b) = false) ∧
        ∀ v ∈ catalog.connected,
          shown v past = reports.flatMap (List.replicate (catalog.connected.count v))) ∧
    ∀ past p future, s₀.history (beforeStop run) = past ++ p :: future →
      ∀ v ∈ catalog.connected,
        (false ∈ p.shows v → p.moment = .expiry .disconnectReport ∧
          p.before.isConnected = false ∧ p.after.isConnected = false ∧
          ∃ lost, firstLoss? v past = some lost ∧ lost + delay ≤ p.now) ∧
        (p.before.terminated = false →
          p.before.timers.deadline? .disconnectReport = (firstLoss? v past).map (· + delay)) ∧
        (p.gains = true → ∀ earlier l between, past = earlier ++ l :: between →
          l.before.isConnected = true → l.loses = true →
          (∀ q ∈ between, q.gains = false ∧ false ∉ q.shows v) →
          (∀ q ∈ l :: between ++ [p], q.shows v = []) ∧
            p.after.timers.deadline? .disconnectReport = none) := by
  intro s₀ delay
  have hu : s₀.Unopened := unopened_ofCatalog machine model catalog
  have hr : ∀ v, s₀.catalog.Reads v → v ∉ s₀.catalog.connected :=
    fun v => Catalog.not_mem_connected_of_reads hcat
  have hrun : ∀ {past future}, s₀.history (beforeStop run) = past ++ future →
      Debounced s₀ past (s₀.reached past) := fun hcut =>
    record_beforeStop h hu (fun _ _ _ _ ht hm hstop => ht.advance hr hm hstop)
      (hu.debounced rfl rfl) hcut
  obtain ⟨hchain, hstop⟩ := chain_beforeStop h hu
  refine ⟨fun past future hcut => ?_, ?_⟩
  · obtain ⟨reports, hpairs, -, hshown⟩ := (hrun hcut).informed
    exact ⟨reports, hpairs, hshown⟩
  rintro past ⟨s, now, m⟩ future hcut v hv
  rw [hcut] at hchain hstop
  obtain ⟨rfl, hm, -⟩ := hchain.middle
  have hp : Debounced s₀ past (s₀.reached past) := hrun hcut
  have hne : m ≠ .stop := hstop _ (List.mem_append_right _ List.mem_cons_self)
  refine ⟨fun hs => ?_, fun hlive => hp.pending hlive v hv, ?_⟩
  · obtain ⟨hm', hbefore, hafter, lost, hlost, -, hdue⟩ := hp.reports_down hr hv hm hne hs
    exact ⟨hm', hbefore, hafter, lost, hlost, hdue⟩
  rintro hg earlier l between rfl hup hlost hquiet
  have hl : Debounced s₀ earlier (s₀.reached earlier) := hrun (by rw [hcut, List.append_assoc])
  have hpast := hchain.split.1
  have hpart := hpast.split.2
  rw [← hpast.middle.1] at hl hpart
  refine hl.comes_back hr hv hpart (fun q hq => hstop q ?_) hup hlost hquiet hm hne hg
  exact List.mem_append_left _ (List.mem_append_right _ hq)

/-- A variable that tells whether the machine is connected. -/
def online : Variable where
  name := "online"
  format := .bool
  machineConnected := true

/-- A connection breaks and comes back before the eight seconds are over after which its loss is
reported. It breaks again and stays away: eight seconds after it broke the loss is reported, though
an attempt to connect has failed since. -/
def brokenTwice : List Occurrence :=
  [(0, .opened), (5, .connected), (100, .socketError), (5100, .timer), (5200, .connected),
    (5300, .socketError), (10300, .timer), (10400, .connectFailed), (13300, .timer)]

theorem disconnection_debounced_brokenTwice :
    let catalog : Catalog := { connected := [online] }
    let s := ofCatalog "press" { disconnectReportTime := some 8 } catalog
    Catalog.ofVariables [online] = .ok catalog ∧ s.Legal brokenTwice ∧
      shown online (s.history brokenTwice) = [true, false] ∧
      ∃ past p future, s.history brokenTwice = past ++ p :: future ∧ false ∈ p.shows online ∧
        p.moment = .expiry .disconnectReport ∧ p.before.isConnected = false ∧
        ∃ lost, firstLoss? online past = some lost ∧ lost + 8000 ≤ p.now := by
  intro catalog s
  have hcat : Catalog.ofVariables [online] = .ok catalog := rfl
  have h : s.Legal brokenTwice := by decide +kernel
  have hany : (s.history brokenTwice).any (fun p => (p.shows online).contains false) = true := by
    decide +kernel
  obtain ⟨p, hp, hs⟩ := List.any_eq_true.mp hany
  obtain ⟨past, future, hcut⟩ := List.append_of_mem hp
  obtain ⟨-, hpoint⟩ := disconnection_debounced "press" { disconnectReportTime := some 8 } [online]
    catalog hcat brokenTwice h
  obtain ⟨hdown, -, -⟩ := hpoint past p future hcut online (List.mem_singleton.mpr rfl)
  obtain ⟨hm, hbefore, -, hlost⟩ := hdown (List.contains_iff_mem.mp hs)
  exact ⟨hcat, h, by decide +kernel, past, p, future, hcut, List.contains_iff_mem.mp hs, hm, hbefore,
    hlost⟩

end Session

end GemLink
