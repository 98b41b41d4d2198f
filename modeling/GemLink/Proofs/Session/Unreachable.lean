import GemLink.Proofs.Session.Debounce

/-!
Equipment that cannot be reached. If the clock is looked at whenever a timer is due, and no attempt
to connect succeeds, then the host hears that the machine is disconnected when the delay after the
first failure is over, provided that the session has not given up before: giving up clears all
timers, the pending report with them, and nothing is reported afterwards
(`reported_unless_ended`). So a report whose delay outlasts the attempts to connect is never made
(`not_reportsUnreachable_deafPeer`).

Between two events such a session has only two timers, the next attempt and the report. When both are
due at once the attempt comes first (`OnTime.order`).
-/

namespace GemLink

/-- Whether an event is the success of an attempt to connect. -/
def SessionEvent.isConnected : SessionEvent → Bool
  | .connected => true
  | _ => false

namespace Timers

variable {t : Timers} {now : Nat}

/-- Nothing is overdue. -/
def Pending (t : Timers) (now : Nat) : Prop :=
  ∀ kind deadline, t.deadline? kind = some deadline → now ≤ deadline

theorem pending_of_next? (h : t.next?.all (fun deadline => decide (now ≤ deadline)) = true) :
    t.Pending now := by
  intro kind deadline hk
  have hmem : deadline ∈ TimerKind.all.filterMap t.deadline? := by
    refine List.mem_filterMap.mpr ⟨kind, ?_, hk⟩
    cases kind <;> decide
  obtain ⟨first, hfirst⟩ := Option.isSome_iff_exists.mp (List.isSome_min?_of_mem hmem)
  have hle : now ≤ first := of_decide_eq_true (Option.all_eq_true _ _ |>.mp h first hfirst)
  exact hle.trans ((List.min?_eq_some_iff.mp hfirst).2 deadline hmem)

/-- When nothing is overdue, the timers that are due expire in the order of their kinds. -/
theorem Pending.expired_eq (h : t.Pending now) :
    t.expired now = TimerKind.all.filter (t.isDue now) := by
  have hnow : ∀ kind ∈ TimerKind.all.filter (t.isDue now), t.deadline? kind = some now := by
    intro kind hk
    obtain ⟨deadline, hd, hle⟩ := deadline?_of_isDue (List.mem_filter.mp hk).2
    rw [hd, Nat.le_antisymm hle (h kind deadline hd)]
  refine List.mergeSort_of_pairwise (List.pairwise_of_forall_mem_list fun a ha b hb => ?_)
  rw [hnow a ha, hnow b hb]
  exact decide_eq_true (Nat.le_refl now)

end Timers

namespace Session

/-! ## Runs on which no attempt to connect succeeds -/

/-- Whether no event of a run comes later than the next deadline. -/
def isPunctual (s : Session) : List Occurrence → Bool
  | [] => true
  | (now, event) :: rest =>
    s.timers.next?.all (fun deadline => decide (now ≤ deadline)) &&
      (s.step now event).isPunctual rest

variable {s₀ s t : Session} {past : List Passage} {now clock : Nat} {m : Moment}
  {event : SessionEvent} {opened : Bool} {run : List Occurrence} {v : Variable}

/-- What holds of a session that is not connected and not being stopped. -/
structure Apart (s : Session) : Prop where
  consistent : s.Consistent
  running : s.stopping = false
  down : s.isConnected = false

theorem Apart.advance (h : s.Apart) (hm : s.Permits m) (hstop : m ≠ .stop) (hc : m ≠ .connected) :
    (s.advance now m).Apart := by
  refine ⟨h.consistent.advance hm, stopping_advance h.running hstop, ?_⟩
  have hnobody : ∀ v, s.catalog.Reads v → ¬ False := fun _ _ => id
  cases bulletin_advance (P := fun _ => False) now h.consistent h.running hnobody hm hstop with
  | unseen _ hu => exact hu.isConnected.trans h.down
  | launched _ _ hl => simp [isConnected, hl]
  | connected hm' => exact absurd hm' hc
  | lost _ hl => simp [isConnected, hl]
  | reported _ _ ht =>
    rw [ht, reportDisconnected_eq]
    exact h.down
  | reconnected _ hd ht =>
    rw [ht]
    exact (h.consistent.not_connected_reconnect hd).2

/-- Only two timers can be due. -/
theorem Apart.expired_eq (h : s.Apart) (hp : s.timers.Pending now) :
    s.timers.expired now =
      [TimerKind.reconnect, .disconnectReport].filter (s.timers.isDue now) := by
  have hdown : s.connection.link ≠ .connected := fun hl => by
    have hup := isConnected_iff.mpr hl
    simp [h.down] at hup
  have hnone : ∀ kind, kind ≠ .reconnect → kind ≠ .disconnectReport →
      s.timers.isDue now kind = false := by
    intro kind hr hd
    cases hdue : s.timers.isDue now kind with
    | false => rfl
    | true =>
      rcases (h.consistent.settled h.running).fewTimers hdown kind
        (Timers.isArmed_of_isDue hdue) with hk | hk
      · exact absurd hk hr
      · exact absurd hk hd
  rw [hp.expired_eq]
  simp [TimerKind.all, List.filter_cons, hnone]

/-- What the timers allow at a passage: the report that the machine is disconnected is not overdue,
and when it is made no attempt to connect is due. -/
structure OnTime (p : Passage) : Prop where
  report : ∀ deadline, p.before.timers.disconnectReport = some deadline → p.now ≤ deadline
  order : p.moment = .expiry .disconnectReport → ∀ deadline,
    p.before.timers.reconnect = some deadline → p.now < deadline

theorem onTime_of_pending (h : s.timers.Pending now) (hm : m ≠ .expiry .disconnectReport) :
    OnTime ⟨s, now, m⟩ :=
  ⟨fun deadline hd => h .disconnectReport deadline hd, fun he => absurd he hm⟩

/-- An event that comes in time has only passages that do. -/
theorem Apart.onTime_event (h : s.Apart) (hp : s.timers.Pending now)
    (ha : s.admits opened event = true) (hc : event.isConnected = false) :
    ∀ p ∈ s.passages now (s.moments now event), OnTime p := by
  have hsingle : ∀ m, m ≠ .expiry .disconnectReport → ∀ p ∈ s.passages now [m], OnTime p :=
    fun m hm => List.forall_mem_singleton.mpr (onTime_of_pending hp hm)
  have hlink : ¬ s.connection.link = .connected := fun hl => by
    have hup := isConnected_iff.mpr hl
    simp [h.down] at hup
  cases event with
  | opened => exact hsingle .opened (by simp)
  | connectFailed => exact hsingle .connectFailed (by simp)
  | write name value => exact hsingle (.write name value) (by simp)
  | stop => exact hsingle .stop (by simp)
  | connected => cases hc
  | data received => simp [admits, hlink] at ha
  | socketError => simp [admits, hlink] at ha
  | socketEnd => simp [admits, hlink] at ha
  | timer =>
    unfold moments
    rw [h.expired_eq hp, List.filter_cons, List.filter_cons, List.filter_nil]
    cases hr : s.timers.isDue now .reconnect with
    | false =>
      -- what is not due yet is due later, since nothing is overdue
      have hlater : ∀ deadline, s.timers.reconnect = some deadline → now < deadline := by
        intro deadline hd
        have hd' : s.timers.deadline? .reconnect = some deadline := hd
        simpa [Timers.isDue, hd'] using hr
      cases s.timers.isDue now .disconnectReport with
      | false => exact fun p hp => by cases hp
      | true =>
        exact List.forall_mem_singleton.mpr
          ⟨fun deadline hd => hp .disconnectReport deadline hd, fun _ => hlater⟩
    | true =>
      cases s.timers.isDue now .disconnectReport with
      | false => exact hsingle (.expiry .reconnect) (by simp)
      | true =>
        refine List.forall_mem_cons.mpr ⟨onTime_of_pending hp (by simp),
          List.forall_mem_singleton.mpr ?_⟩
        have hafter : s.advance now (.expiry .reconnect) = (s.cancel .reconnect).reconnect :=
          if_pos hr
        rw [hafter, reconnect_eq]
        constructor
        · intro deadline hd
          dsimp only at hd
          split at hd
          · cases hd
          · exact hp .disconnectReport deadline hd
        · intro _ deadline hd
          dsimp only at hd
          split at hd <;> cases hd

theorem Apart.chain (h : s.Apart) {ps : List Passage} (hchain : Chain s ps t)
    (hps : ∀ p ∈ ps, p.moment ≠ .stop ∧ p.moment ≠ .connected) :
    t.Apart ∧ ∀ p ∈ ps, p.gains = false := by
  have hnil : s.Apart ∧ ∀ p ∈ ([] : List Passage), p.gains = false := ⟨h, by simp⟩
  refine hchain.record_of (Q := fun p => p.moment ≠ .stop ∧ p.moment ≠ .connected)
    (I := fun ps t => t.Apart ∧ ∀ p ∈ ps, p.gains = false) ?_ hps hnil
  rintro ps t now m ⟨ht, hps⟩ hm ⟨hstop, hc⟩
  have hnext : (t.advance now m).Apart := ht.advance hm hstop hc
  refine ⟨hnext, ?_⟩
  rw [List.forall_mem_append, List.forall_mem_singleton]
  exact ⟨hps, Passage.gains_eq_false (hnext.down.trans ht.down.symm)⟩

theorem isConnected_of_mem_moments (h : .connected ∈ s.moments now event) :
    event.isConnected = true := by
  cases event with
  | connected => rfl
  | data received => simp [moments] at h
  | timer => simp [moments] at h
  | _ => cases List.mem_singleton.mp h

/-- All passages of a punctual run come in time, and none brings a connection if no attempt to
connect succeeds. -/
theorem Apart.onTime_history (h : s.Apart) (hl : s.LegalFrom clock opened run)
    (hu : opened = false → s.Unopened) (hp : s.isPunctual run = true)
    (hrun : ∀ o ∈ run, o.2.isStop = false ∧ o.2.isConnected = false) :
    ∀ p ∈ s.history run, OnTime p ∧ p.gains = false := by
  induction run generalizing clock opened s with
  | nil => simp [history]
  | cons o rest ih =>
    obtain ⟨now, event⟩ := o
    obtain ⟨-, ha, hrest⟩ := hl
    rw [List.forall_mem_cons] at hrun
    obtain ⟨⟨hstop, hc⟩, hrun⟩ := hrun
    have hnow : (s.timers.next?.all fun deadline => decide (now ≤ deadline)) = true ∧
        (s.step now event).isPunctual rest = true := by simpa [isPunctual] using hp
    have hmoments : ∀ p ∈ s.passages now (s.moments now event),
        p.moment ≠ .stop ∧ p.moment ≠ .connected := by
      intro p hp
      have hm := (mem_passages hp).2
      refine ⟨fun he => ?_, fun he => ?_⟩
      · have hs := (event_of_mem_moments hm).2 he
        simp [hstop] at hs
      · have hup := isConnected_of_mem_moments (he ▸ hm)
        simp [hc] at hup
    obtain ⟨hnext, hgains⟩ := h.chain (chain_event now ha hu) hmoments
    unfold history
    rw [List.forall_mem_append]
    refine ⟨fun p hp => ⟨?_, hgains p hp⟩, ih hnext hrest (fun ho => ?_) hnow.2 hrun⟩
    · exact h.onTime_event (Timers.pending_of_next? hnow.1) ha hc p hp
    · obtain ⟨rfl, he⟩ : opened = false ∧ event.isOpening = false := by simpa using ho
      exact (hu rfl).step now ha he

/-! ## A failure and what becomes of it -/

/-- What has become of a failure at the time `lost`: nothing yet, or the host has heard of it when
the delay was over, and since then no attempt to connect is due before that. -/
inductive Owed (v : Variable) (delay lost : Nat) (past since : List Passage) (s : Session) : Prop
  | pending (hn : ∀ q ∈ since, false ∉ q.shows v) (hl : firstLoss? v (past ++ since) = some lost)
  | paid (hs : ∃ q ∈ since, false ∈ q.shows v ∧ q.now = lost + delay)
      (hr : ∀ deadline, s.timers.reconnect = some deadline → lost + delay < deadline)

variable {since : List Passage} {delay lost : Nat}

/-- What a passage in time makes of a failure while the session is not connected. -/
theorem Owed.advance (h : Owed v s₀.settings.disconnectDelay lost past since s)
    (hd : Debounced s₀ (past ++ since) s)
    (hr : ∀ v, s₀.catalog.Reads v → v ∉ s₀.catalog.connected) (hv : v ∈ s₀.catalog.connected)
    (hm : s.Permits m) (hstop : m ≠ .stop) (hg : Passage.gains ⟨s, now, m⟩ = false)
    (ht : OnTime ⟨s, now, m⟩) (hlater : ∀ q ∈ since, q.now ≤ now) :
    Owed v s₀.settings.disconnectDelay lost past (since ++ [⟨s, now, m⟩]) (s.advance now m) := by
  cases h with
  | paid hs hn =>
    obtain ⟨q, hq, hshown, hnow⟩ := hs
    refine .paid ⟨q, List.mem_append_left _ hq, hshown, hnow⟩ ?_
    cases hd.toOngoing.shift now hr hm hstop with
    | kept _ _ _ _ _ hkept => exact fun deadline ha => hn deadline (hkept deadline ha)
    | up _ hup => simp [hg] at hup
    | lost _ _ _ _ _ _ harmed =>
      -- the next attempt is set from now on, and the host has heard before
      intro deadline ha
      have hle : q.now ≤ now := hlater q hq
      have hset : some (now + reconnectDelay) = some deadline := harmed.symm.trans ha
      unfold reconnectDelay at hset
      cases hset
      omega
    | reported _ _ _ _ _ _ _ hkept => exact fun deadline ha => hn deadline (hkept.symm.trans ha)
    | failed _ _ _ _ _ _ _ _ hnone => exact fun deadline ha => by cases hnone.symm.trans ha
  | pending hn hl =>
    have hquiet : Passage.shows v ⟨s, now, m⟩ = [] →
        Owed v s₀.settings.disconnectDelay lost past (since ++ [⟨s, now, m⟩])
          (s.advance now m) := by
      intro hs
      refine .pending ?_ ?_
      · rw [List.forall_mem_append, List.forall_mem_singleton, hs]
        exact ⟨hn, List.not_mem_nil⟩
      · rw [← List.append_assoc, firstLoss?_concat, Passage.settles_eq_false hg hs, hl]
        cases Passage.loses ⟨s, now, m⟩ <;> rfl
    cases hd.toOngoing.shift now hr hm hstop with
    | kept _ _ hs => exact hquiet (hs v hv)
    | up _ hup => simp [hg] at hup
    | lost _ _ _ hs => exact hquiet (hs v hv)
    | failed _ _ _ _ _ hs => exact hquiet (hs v hv)
    | reported hm' _ _ _ hs _ _ hkept =>
      have hpos := List.count_pos_iff.mpr hv
      have hfalse : false ∈ Passage.shows v ⟨s, now, m⟩ := by simp [hs v hv, hpos.ne']
      obtain ⟨-, -, -, lost', hlost, hset, hdue⟩ := hd.reports_down hr hv hm hstop hfalse
      obtain rfl : lost = lost' := Option.some_inj.mp (hl.symm.trans hlost)
      have hnow : now = lost + s₀.settings.disconnectDelay :=
        Nat.le_antisymm (ht.report _ hset) hdue
      refine .paid ⟨_, List.mem_append_right _ List.mem_cons_self, hfalse, hnow⟩ fun deadline ha => ?_
      exact hnow ▸ ht.order hm' deadline (hkept.symm.trans ha)

/-- What holds of a session that began as `s₀` since a failure at the time `lost`, which nothing has
settled until then. -/
structure Followed (s₀ : Session) (v : Variable) (lost : Nat) (past since : List Passage)
    (s : Session) : Prop where
  debounced : Debounced s₀ (past ++ since) s
  owed : Owed v s₀.settings.disconnectDelay lost past since s
  ended : s.terminated = since.any Passage.ends

theorem Followed.chain (h : Followed s₀ v lost past [] s)
    (hr : ∀ v, s₀.catalog.Reads v → v ∉ s₀.catalog.connected) (hv : v ∈ s₀.catalog.connected)
    (hchain : Chain s since t)
    (hsince : ∀ q ∈ since, q.moment ≠ .stop ∧ q.gains = false ∧ OnTime q)
    (hpairs : since.Pairwise fun p q => p.now ≤ q.now) : Followed s₀ v lost past since t := by
  refine hchain.record_of (Q := fun q => q.moment ≠ .stop ∧ q.gains = false ∧ OnTime q)
    (I := fun since t => (since.Pairwise fun p q => p.now ≤ q.now) →
      Followed s₀ v lost past since t) ?_ hsince (fun _ => h) hpairs
  rintro since t now m hsince hm ⟨hstop, hg, ht⟩ hpairs
  obtain ⟨hbefore, -, hlater⟩ := List.pairwise_append.mp hpairs
  obtain ⟨hd, ho, he⟩ := hsince hbefore
  refine ⟨?_, ho.advance hd hr hv hm hstop hg ht fun q hq => hlater q hq _ List.mem_cons_self, ?_⟩
  · rw [← List.append_assoc]
    exact hd.advance hr hm hstop
  · rw [hd.consistent.terminated_advance now hm, he, List.any_append]
    simp

/-- While the session goes on and the host has not heard of the failure, the report is set for when
the delay is over. -/
theorem Followed.report (h : Followed s₀ v lost past since s) (hv : v ∈ s₀.catalog.connected)
    (hn : ∀ q ∈ since, false ∉ q.shows v) (hlive : s.terminated = false) :
    s.timers.disconnectReport = some (lost + s₀.settings.disconnectDelay) := by
  cases h.owed with
  | paid hs _ =>
    obtain ⟨q, hq, hshown, -⟩ := hs
    exact absurd hshown (hn q hq)
  | pending _ hl => rw [h.debounced.pending hlive v hv, hl, Option.map_some]

/-- When the session gives up, the host has heard of the failure exactly if the delay was over
before. -/
theorem Followed.heard_iff (h : Followed s₀ v lost past since s)
    (hr : ∀ v, s₀.catalog.Reads v → v ∉ s₀.catalog.connected) (hv : v ∈ s₀.catalog.connected)
    (hm : s.Permits m) (hstop : m ≠ .stop) (ht : OnTime ⟨s, now, m⟩)
    (he : Passage.ends ⟨s, now, m⟩ = true) :
    (∃ q ∈ since, false ∈ q.shows v) ↔ lost + s₀.settings.disconnectDelay < now := by
  cases h.debounced.toOngoing.shift now hr hm hstop with
  | failed _ hdue =>
    obtain ⟨deadline, hset, hle⟩ := Timers.deadline?_of_isDue hdue
    refine ⟨fun hs => ?_, fun hlt => Decidable.byContradiction fun hs => ?_⟩
    · cases h.owed with
      | paid _ hn => exact Nat.lt_of_lt_of_le (hn deadline hset) hle
      | pending hn _ =>
        obtain ⟨q, hq, hshown⟩ := hs
        exact absurd hshown (hn q hq)
    · -- the next attempt is set, so that the session has not given up before
      have hlive : s.terminated = false := by
        cases hterm : s.terminated with
        | false => rfl
        | true =>
          have hclosed := (h.debounced.givenUp hterm).1.closed
          rw [(h.debounced.consistent.sound.reconnect (Timers.isArmed_of_isDue hdue)).2] at hclosed
          cases hclosed
      have hreport := h.report hv (fun q hq hshown => hs ⟨q, hq, hshown⟩) hlive
      exact absurd (ht.report _ hreport) (Nat.not_le.mpr hlt)
  | kept _ _ _ _ _ _ hne => simp [he] at hne
  | up _ _ _ _ _ _ hne => simp [he] at hne
  | lost _ _ _ _ _ _ _ hne => simp [he] at hne
  | reported _ _ _ _ _ _ _ _ hne => simp [he] at hne

/-- Once the session has given up, the host hears nothing more of the machine. -/
theorem Debounced.silent_over (h : Debounced s₀ past s)
    (hr : ∀ v, s₀.catalog.Reads v → v ∉ s₀.catalog.connected) (hv : v ∈ s₀.catalog.connected)
    (hover : s.terminated = true) {ps : List Passage} (hchain : Chain s ps t)
    (hstop : ∀ q ∈ ps, q.moment ≠ .stop) : ∀ q ∈ ps, q.shows v = [] := by
  have hrun := hchain.record_of (Q := fun q => q.moment ≠ .stop)
    (I := fun ps t => Debounced s₀ ps t ∧ t.terminated = true ∧
      ∀ q ∈ ps.drop past.length, q.shows v = []) ?_ hstop ⟨h, hover, by simp⟩
  · simpa using hrun.2.2
  rintro ps t now m ⟨hd, hterm, hps⟩ hm hstop
  obtain ⟨hgone, hnone⟩ := hd.givenUp hterm
  have hnext : Passage.shows v ⟨t, now, m⟩ = [] := by
    cases hd.toOngoing.shift now hr hm hstop with
    | kept _ _ hs => exact hs v hv
    | up _ _ _ _ _ _ _ ho => exact absurd hgone ho
    | lost _ _ _ _ _ _ _ _ ho => exact absurd hgone ho
    | reported _ hdue =>
      obtain ⟨deadline, hset, -⟩ := Timers.deadline?_of_isDue hdue
      have hset' : t.timers.disconnectReport = some deadline := hset
      cases hnone.symm.trans hset'
    | failed _ _ _ _ _ hs => exact hs v hv
  refine ⟨hd.advance hr hm hstop, ?_, fun q hq => ?_⟩
  · rw [hd.consistent.terminated_advance now hm, hterm, Bool.true_or]
  · rw [List.drop_append] at hq
    rcases List.mem_append.mp hq with hq | hq
    · exact hps q hq
    · rw [List.mem_singleton.mp (List.mem_of_mem_drop hq), hnext]

theorem Shift.silent_of_ends {connected : List Variable} {delay : Nat} {p : Passage}
    (h : Shift connected delay p) (hv : v ∈ connected) (he : p.ends = true) : p.shows v = [] := by
  cases h with
  | failed _ _ _ _ _ hs => exact hs v hv
  | kept _ _ hs => exact hs v hv
  | lost _ _ _ hs => exact hs v hv
  | up _ _ _ _ _ _ hne => simp [he] at hne
  | reported _ _ _ _ _ _ _ _ hne => simp [he] at hne

theorem firstLoss?_of_none (h : ∀ q ∈ past, q.loses = false) : firstLoss? v past = none := by
  induction past using List.reverseRecOn with
  | nil => rfl
  | append_singleton past p ih =>
    rw [List.forall_mem_append, List.forall_mem_singleton] at h
    rw [firstLoss?_concat, ih h.1, h.2]
    split <;> rfl

theorem Debounced.followed (h : Debounced s₀ past s)
    (hr : ∀ v, s₀.catalog.Reads v → v ∉ s₀.catalog.connected) (hv : v ∈ s₀.catalog.connected)
    (hm : s.Permits m) (hstop : m ≠ .stop) (hl : Passage.loses ⟨s, now, m⟩ = true)
    (hnone : firstLoss? v past = none) :
    Followed s₀ v now (past ++ [⟨s, now, m⟩]) [] (s.advance now m) := by
  cases h.toOngoing.shift now hr hm hstop with
  | lost hg _ _ hs _ _ _ he ho =>
    have hlive : s.terminated = false := by
      cases hterm : s.terminated with
      | false => rfl
      | true => exact absurd (h.givenUp hterm).1 ho
    refine ⟨by rw [List.append_nil]; exact h.advance hr hm hstop, .pending (by simp) ?_, ?_⟩
    · rw [List.append_nil, firstLoss?_concat, Passage.settles_eq_false hg (hs v hv), hl, hnone]
      rfl
    · rw [h.consistent.terminated_advance now hm, hlive, he]
      rfl
  | kept _ hne => simp [hl] at hne
  | up _ _ hne => simp [hl] at hne
  | reported _ _ _ hne => simp [hl] at hne
  | failed _ _ _ hne => simp [hl] at hne

/-! ## After the failure

The passages after a failure are cut at one of them, `q`. -/

section

variable {between rest : List Passage} {q : Passage} (h : Followed s₀ v lost past [] s)
  (hr : ∀ v, s₀.catalog.Reads v → v ∉ s₀.catalog.connected) (hv : v ∈ s₀.catalog.connected)
  (hchain : Chain s (between ++ q :: rest) t)
  (hside : ∀ p ∈ between ++ q :: rest, p.moment ≠ .stop ∧ p.gains = false ∧ OnTime p)
  (hordered : (between ++ q :: rest).Pairwise fun p q => p.now ≤ q.now)

include h hr hv hchain hside hordered

theorem Followed.middle : Followed s₀ v lost past between q.before := by
  rw [hchain.middle.1]
  exact h.chain hr hv hchain.split.1 (fun p hp => hside p (List.mem_append_left _ hp))
    (List.pairwise_append.mp hordered).1

/-- If the clock has passed the end of the delay, then the host heard of the failure when the delay
was over, or the session had given up by then. -/
theorem Followed.heard_or_ended (hlt : lost + s₀.settings.disconnectDelay < q.now) :
    (∃ p ∈ between, false ∈ p.shows v ∧ p.now = lost + s₀.settings.disconnectDelay) ∨
      ∃ p ∈ between, p.ends = true ∧ p.now ≤ lost + s₀.settings.disconnectDelay := by
  have hq := h.middle hr hv hchain hside hordered
  obtain ⟨-, -, ht⟩ := hside q (List.mem_append_right _ List.mem_cons_self)
  cases hq.owed with
  | paid hs _ => exact .inl hs
  | pending hn _ =>
    cases hterm : q.before.terminated with
    | false =>
      have hreport := hq.report hv hn hterm
      exact absurd (ht.report _ hreport) (Nat.not_le.mpr hlt)
    | true =>
      obtain ⟨p, hp, he⟩ := List.any_eq_true.mp (hq.ended.symm.trans hterm)
      refine .inr ⟨p, hp, he, Nat.le_of_not_lt fun hlt => ?_⟩
      -- the host would have heard before the session gave up
      obtain ⟨earlier, later, rfl⟩ := List.append_of_mem hp
      rw [List.append_assoc, List.cons_append] at hchain hside hordered
      obtain ⟨hne, -, ht⟩ := hside p (List.mem_append_right _ List.mem_cons_self)
      have hp := h.middle hr hv hchain hside hordered
      obtain ⟨p', hp', hshown⟩ := (hp.heard_iff hr hv hchain.middle.2.1 hne ht he).mpr hlt
      exact hn p' (List.mem_append_left _ hp') hshown

/-- When the session gives up, the host has heard of the failure exactly if the delay was over
before, and hears nothing from then on. -/
theorem Followed.heard_before_end (he : q.ends = true) :
    ((∃ p ∈ between, false ∈ p.shows v) ↔ lost + s₀.settings.disconnectDelay < q.now) ∧
      ∀ p ∈ q :: rest, p.shows v = [] := by
  have hq := h.middle hr hv hchain hside hordered
  obtain ⟨-, hm, hover⟩ := hchain.middle
  rw [List.forall_mem_append, List.forall_mem_cons] at hside
  obtain ⟨-, ⟨hne, -, ht⟩, hlater⟩ := hside
  refine ⟨hq.heard_iff hr hv hm hne ht he, List.forall_mem_cons.mpr ⟨?_, ?_⟩⟩
  · exact (hq.debounced.toOngoing.shift q.now hr hm hne).silent_of_ends hv he
  · have hend : (q.before.advance q.now q.moment).terminated = true := by
      rw [hq.debounced.consistent.terminated_advance q.now hm, he, Bool.or_true]
    exact (hq.debounced.advance hr hm hne).silent_over hr hv hend hover fun p hp => (hlater p hp).1

end

/-! ## Runs -/

/-- In a legal and punctual run on which no attempt to connect succeeds, until a stop begins: if the
clock has passed the end of the delay after the first failure, then the host has heard at that very
time that the machine is disconnected, or the session had given up by then. When the session gives
up, the host has heard so exactly if the delay was over before, and it hears nothing from then
on. -/
theorem reported_unless_ended (machine : String) (model : Model) (vs : List Variable)
    (catalog : Catalog) (hcat : Catalog.ofVariables vs = .ok catalog) (run : List Occurrence)
    (h : (ofCatalog machine model catalog).Legal run)
    (hp : (ofCatalog machine model catalog).isPunctual (beforeStop run) = true)
    (hf : ∀ o ∈ run, o.2.isConnected = false) :
    let s₀ := ofCatalog machine model catalog
    let delay := s₀.settings.disconnectDelay
    ∀ past l future, s₀.history (beforeStop run) = past ++ l :: future → l.loses = true →
      (∀ q ∈ past, q.loses = false) → ∀ v ∈ catalog.connected,
        (∀ between q rest, future = between ++ q :: rest → l.now + delay < q.now →
          (∃ p ∈ between, false ∈ p.shows v ∧ p.now = l.now + delay) ∨
            ∃ p ∈ between, p.ends = true ∧ p.now ≤ l.now + delay) ∧
        ∀ between p rest, future = between ++ p :: rest → p.ends = true →
          ((∃ q ∈ between, false ∈ q.shows v) ↔ l.now + delay < p.now) ∧
            ∀ q ∈ p :: rest, q.shows v = [] := by
  intro s₀ delay past l future hcut hl hfirst v hv
  have hu : s₀.Unopened := unopened_ofCatalog machine model catalog
  have hr : ∀ v, s₀.catalog.Reads v → v ∉ s₀.catalog.connected :=
    fun v => Catalog.not_mem_connected_of_reads hcat
  have hlegal : s₀.LegalFrom 0 false (beforeStop run) := LegalFrom.beforeStop h
  obtain ⟨hchain, hstop⟩ := chain_beforeStop h hu
  have hrun : ∀ o ∈ beforeStop run, o.2.isStop = false ∧ o.2.isConnected = false := fun o ho =>
    ⟨by simpa using List.all_eq_true.mp List.all_takeWhile o ho,
      hf o ((List.takeWhile_sublist _).subset ho)⟩
  have hapart : s₀.Apart := ⟨hu.consistent, rfl, by simp [isConnected, hu.connection]⟩
  have htime := hapart.onTime_history hlegal (fun _ => hu) hp hrun
  have hpairs := (history_pairwise hlegal).2
  have hdeb : Debounced s₀ past (s₀.reached past) :=
    record_beforeStop h hu (fun _ _ _ _ ht hm hstop => ht.advance hr hm hstop)
      (hu.debounced rfl rfl) hcut
  rw [hcut] at hchain hstop htime hpairs
  obtain ⟨hbefore, hm, hrest⟩ := hchain.middle
  rw [← hbefore] at hdeb
  have hfollow := hdeb.followed hr hv hm (hstop l (by simp)) hl (firstLoss?_of_none hfirst)
  have hside : ∀ q ∈ future, q.moment ≠ .stop ∧ q.gains = false ∧ OnTime q := fun q hq =>
    have hq' : q ∈ past ++ l :: future := List.mem_append_right _ (List.mem_cons_of_mem l hq)
    ⟨hstop q hq', (htime q hq').2, (htime q hq').1⟩
  have hordered : future.Pairwise fun p q => p.now ≤ q.now :=
    (List.pairwise_append.mp hpairs).2.1.of_cons
  constructor
  · rintro between q rest rfl hlt
    exact hfollow.heard_or_ended hr hv hrest hside hordered hlt
  · rintro between p rest rfl he
    exact hfollow.heard_before_end hr hv hrest hside hordered he

/-- No attempt to connect succeeds; seven seconds after the first failure its report is made, between
the second attempt and the third. -/
def silentPeer : List Occurrence :=
  [(0, .opened), (0, .connectFailed), (5000, .timer), (5100, .connectFailed), (7000, .timer),
    (10100, .timer), (10100, .connectFailed), (15100, .timer)]

theorem lt_length_silentPeer :
    let ps := (ofCatalog "press" { disconnectReportTime := some 7 }
      { connected := [online] }).history (beforeStop silentPeer)
    1 < ps.length ∧ 5 < (ps.drop 2).length := by
  decide +kernel

theorem reported_unless_ended_silentPeer :
    let catalog : Catalog := { connected := [online] }
    let s := ofCatalog "press" { disconnectReportTime := some 7 } catalog
    Catalog.ofVariables [online] = .ok catalog ∧ s.Legal silentPeer ∧
      s.isPunctual (beforeStop silentPeer) = true ∧
      (∀ o ∈ silentPeer, o.2.isConnected = false) ∧
      ∃ past l between p rest,
        s.history (beforeStop silentPeer) = past ++ l :: (between ++ p :: rest) ∧
          l.loses = true ∧ p.ends = true ∧ (∃ q ∈ between, false ∈ q.shows online) ∧
            ∀ q ∈ p :: rest, q.shows online = [] := by
  intro catalog s
  have hcat : Catalog.ofVariables [online] = .ok catalog := rfl
  have h : s.Legal silentPeer := by decide +kernel
  have hp : s.isPunctual (beforeStop silentPeer) = true := by decide +kernel
  have hf : ∀ o ∈ silentPeer, o.2.isConnected = false := by decide
  have hcut := eq_cut_pair lt_length_silentPeer.1 lt_length_silentPeer.2
  obtain ⟨-, hended⟩ := reported_unless_ended "press" { disconnectReportTime := some 7 } [online]
    catalog hcat silentPeer h hp hf _ _ _ hcut (by decide +kernel) (by decide +kernel) online
    (List.mem_singleton.mpr rfl)
  obtain ⟨hheard, hsilent⟩ := hended _ _ _ rfl (by decide +kernel)
  exact ⟨hcat, h, hp, hf, _, _, _, _, _, hcut, by decide +kernel, by decide +kernel,
    hheard.mpr (by decide +kernel), hsilent⟩

/-! ## A report that outlasts the attempts to connect -/

/-- Whether the host hears of the first failure in a history when the delay is over, or when the
session gives up, if that is earlier. -/
def ReportsUnreachable (v : Variable) (delay : Nat) (ps : List Passage) : Prop :=
  ∀ past l between q rest, ps = past ++ l :: (between ++ q :: rest) →
    (∀ p ∈ past, p.loses = false) → l.loses = true → l.now + delay < q.now ∨ q.ends = true →
      ∃ p ∈ l :: (between ++ q :: rest), false ∈ p.shows v ∧ p.now ≤ l.now + delay ∧ p.now ≤ q.now

/-- No attempt to connect succeeds, and the session gives up. -/
def deafPeer : List Occurrence :=
  [(0, .opened), (0, .connectFailed), (5000, .timer), (5000, .connectFailed), (10000, .timer),
    (10000, .connectFailed), (15000, .timer)]

theorem lt_length_deafPeer :
    let ps := (ofCatalog "press" { disconnectReportTime := some 60 }
      { connected := [online] }).history deafPeer
    1 < ps.length ∧ 4 < (ps.drop 2).length := by
  decide +kernel

/-- Giving up after fifteen seconds drops the report that would be due after sixty. -/
theorem not_reportsUnreachable_deafPeer :
    let catalog : Catalog := { connected := [online] }
    let s := ofCatalog "press" { disconnectReportTime := some 60 } catalog
    Catalog.ofVariables [online] = .ok catalog ∧ s.Legal deafPeer ∧ s.isPunctual deafPeer = true ∧
      (∀ o ∈ deafPeer, o.2.isConnected = false) ∧
      ¬ ReportsUnreachable online s.settings.disconnectDelay (s.history deafPeer) := by
  intro catalog s
  refine ⟨rfl, by decide +kernel, by decide +kernel, by decide, fun h => ?_⟩
  have hcut := eq_cut_pair lt_length_deafPeer.1 lt_length_deafPeer.2
  obtain ⟨p, hp, hshown, -⟩ := h _ _ _ _ _ hcut (by decide +kernel) (by decide +kernel)
    (.inr (by decide +kernel))
  have hnever : ∀ p ∈ s.history deafPeer, false ∉ p.shows online := by decide +kernel
  refine hnever p ?_ hshown
  rw [hcut]
  exact List.mem_append_right _ hp

end Session

end GemLink
