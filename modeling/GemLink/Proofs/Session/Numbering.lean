import GemLink.Proofs.Session.Conduct
import GemLink.Proofs.Session.Transactions
import GemLink.Proofs.Session.Writes

/-!
How the transactions of a connection are numbered. A session begins its numbers at zero when it
attempts to connect (`link_advance`), and without a connection it begins no transaction
(`offline_advance`). So the numbers of a connection begin at zero and have no gap (`Numbered`), and
the first of its transactions is that of the startup step, which alternates from one connection to
the next until the session begins from the start (`Alternating`). Together these say how all
transactions of a legal run are numbered (`transactions_numbered`).
-/

namespace GemLink

namespace Session

variable {s t u : Session} {now : Nat} {m : Moment} {acts : List Action}

/-! ## Without a connection -/

/-- The timers that can be armed without a connection. -/
def TimersOffline (t : Timers) : Prop :=
  ∀ kind, t.isArmed kind = true →
    kind = .reconnect ∨ kind = .disconnectReport ∨ kind = .dataComplete

theorem timersOffline_empty : TimersOffline {} := by
  intro kind h
  simp at h

theorem TimersOffline.cancel {t : Timers} (h : TimersOffline t) (kind : TimerKind) :
    TimersOffline (t.cancel kind) := by
  intro other ho
  rw [Timers.isArmed_cancel, Bool.and_eq_true] at ho
  exact h other ho.2

/-- What begins no transaction and leaves such timers. -/
structure Idles (s t : Session) : Prop where
  silent : ∃ acts, t.outbox = s.outbox ++ acts ∧ initiatedIn acts = []
  timers : TimersOffline t.timers

theorem Idles.of_news (h : News s t) (ht : TimersOffline s.timers) : Idles s t := by
  obtain ⟨acts, c, rfl, ha⟩ := h
  exact ⟨⟨acts, rfl, initiatedIn_of_news ha⟩, ht⟩

theorem Heard.idles {inbound : Inbound} (h : s.Heard inbound t) (ht : TimersOffline s.timers) :
    Idles s t := by
  cases h with
  | asked _ => exact ⟨⟨_, rfl, initiatedIn_reply s.parties (by decide) (by decide) _ _⟩, ht⟩
  | timedOut _ => exact ⟨⟨[], (List.append_nil _).symm, rfl⟩, ht.cancel _⟩
  | malformed _ => exact ⟨⟨_, rfl, rfl⟩, ht⟩
  | alarmed _ alarms _ hn =>
    obtain ⟨acts, c, rfl, ha⟩ := hn
    refine ⟨⟨_, List.append_assoc _ _ _, ?_⟩, ht⟩
    rw [initiatedIn_append, initiatedIn_of_news ha,
      initiatedIn_reply s.parties (by decide) (by decide)]
    rfl
  | reported _ u hn =>
    obtain ⟨acts, c, rfl, ha⟩ := hn
    refine ⟨⟨_, List.append_assoc _ _ _, ?_⟩, ht⟩
    rw [initiatedIn_append, initiatedIn_of_news ha, List.nil_append]
    exact initiatedIn_reply s.parties (by decide) (by decide) _ _

theorem idles_finishStop (s : Session) (ht : TimersOffline s.timers) : Idles s s.finishStop := by
  cases ho : s.connection.opened with
  | true =>
    rw [finishStop_eq s ho]
    exact ⟨⟨_, rfl, rfl⟩, timersOffline_empty⟩
  | false =>
    unfold finishStop
    rw [if_neg (by simp [ho])]
    exact ⟨⟨[], (List.append_nil _).symm, rfl⟩, ht⟩

theorem idles_disconnect (s : Session) (ht : TimersOffline s.timers) (graceful : Bool) :
    Idles s (s.disconnect graceful now) := by
  cases ho : s.connection.opened with
  | false =>
    unfold disconnect
    rw [if_pos (by simp [ho])]
    exact ⟨⟨[], (List.append_nil _).symm, rfl⟩, ht⟩
  | true =>
    cases hs : s.stopping with
    | true =>
      rw [disconnect_of_stopping s now hs]
      exact idles_finishStop s ht
    | false =>
      rw [disconnect_eq s now ho hs]
      refine ⟨⟨_, rfl, rfl⟩, fun kind => ?_⟩
      cases kind <;> simp [Timers.isArmed, Timers.deadline?]

/-- Without a connection no transaction begins, until there is one. -/
theorem offline_advance (now : Nat) (h : s.Consistent) (ht : TimersOffline s.timers)
    (hl : s.connection.link ≠ .connected) (hm : s.Permits m) (hc : m ≠ .connected) :
    Idles s (s.advance now m) := by
  have hsame : Idles s s := ⟨⟨[], (List.append_nil _).symm, rfl⟩, ht⟩
  have hi : s.state = .idle := h.sound.idle hl
  cases m with
  | opened =>
    simp only [advance, launch_eq]
    refine ⟨⟨_, List.append_assoc _ _ _, initiatedIn_eq_nil ?_⟩, ht⟩
    simp only [List.forall_mem_append, List.forall_mem_map, List.forall_mem_singleton]
    exact ⟨⟨fun _ _ => rfl, fun _ _ => rfl⟩, rfl⟩
  | connected => exact absurd rfl hc
  | connectFailed => exact idles_disconnect s ht false
  | socketError => exact absurd hm hl
  | socketEnd => exact absurd hm hl
  | arrival received => exact absurd hm hl
  | frame frame =>
    have hf := handled_handleFrame s now frame
    simp only [advance]
    generalize s.handleFrame now frame = t at hf
    cases hf with
    | heard inbound _ _ hh =>
      obtain ⟨⟨acts, ho, ha⟩, hto⟩ := hh.idles ht
      exact ⟨⟨acts, ho, ha⟩, hto⟩
    | answered inbound _ _ ha =>
      exact absurd hi (by cases ha <;> simp_all [count])
    | ignored counters => exact ⟨⟨[], (List.append_nil _).symm, rfl⟩, ht⟩
  | settled =>
    simp only [advance, awaitRest_eq]
    refine ⟨⟨[], (List.append_nil _).symm, rfl⟩, ?_⟩
    dsimp only
    split
    · exact ht.cancel _
    · intro kind hk
      rw [Timers.isArmed_arm, Bool.or_eq_true, decide_eq_true_eq] at hk
      rcases hk with rfl | hk
      · exact .inr (.inr rfl)
      · exact ht.cancel _ kind hk
  | expiry kind =>
    simp only [advance, expire]
    split
    · next hd =>
      rcases ht kind (Timers.isArmed_of_isDue hd) with rfl | rfl | rfl
      · simp only [fire, reconnect_eq]
        split
        · exact ⟨⟨_, rfl, rfl⟩, timersOffline_empty⟩
        · exact ⟨⟨_, rfl, rfl⟩, ht.cancel _⟩
      · simp only [fire, reportDisconnected_eq]
        refine ⟨⟨_, rfl, initiatedIn_eq_nil ?_⟩, ht.cancel _⟩
        rw [List.forall_mem_map]
        exact fun _ _ => rfl
      · exact ⟨⟨[], (List.append_nil _).symm, rfl⟩, ht.cancel _⟩
    · exact hsame
  | write name value =>
    have hw := written_write s name value now
    simp only [advance]
    generalize (s.write name value now).1 = t at hw
    cases hw with
    | refused _ hn => exact .of_news hn ht
    | sent _ _ hl' _ _ => exact absurd (isConnected_iff.mp hl') hl
    | queued _ _ hl' _ _ => exact absurd (isConnected_iff.mp hl') hl
  | stop =>
    simp only [advance, beginStop]
    split
    · exact hsame
    · split
      · next hl' =>
        rw [Bool.and_eq_true] at hl'
        exact absurd (isConnected_iff.mp hl'.1) hl
      · obtain ⟨⟨acts, ho, ha⟩, hto⟩ := idles_finishStop
          { s with stopping := true, timers := {}, pendingWrites := [] } timersOffline_empty
        exact ⟨⟨acts, ho, ha⟩, hto⟩

/-! ## Connections -/

/-- Apart from attempts to connect and their success, the connection stays as it is or is lost. -/
theorem Deed.link (h : Deed m s t) (ho : m ≠ .opened) (hc : m ≠ .connected)
    (hr : m ≠ .expiry .reconnect) :
    t.connection.link = s.connection.link ∨ t.connection.link = .disconnected := by
  cases h with
  | shift _ hf _ => exact .inl (congrArg Face.link hf)
  | tell _ _ => exact .inl rfl
  | answer _ _ _ _ _ _ _ _ _ => exact .inl rfl
  | ask _ _ => exact .inl rfl
  | follow _ _ _ _ _ _ _ _ _ =>
    rw [publishAlarms_eq]
    exact .inl rfl
  | lose graceful now ho hs =>
    rw [disconnect_eq s now ho hs]
    exact .inr rfl
  | finish ho =>
    rw [finishStop_eq s ho]
    exact .inr rfl
  | launch hm => exact absurd hm ho
  | gain hm _ _ => exact absurd hm hc
  | forget _ _ => exact .inl rfl
  | retry hm _ => exact absurd hm hr
  | hold _ _ _ _ => exact .inl rfl
  | halt _ _ ho =>
    rw [finishStop_eq _ (by exact ho)]
    exact .inr rfl
  | retire _ _ _ => exact .inl rfl

/-- An attempt to connect begins the numbers anew. -/
theorem link_advance (s : Session) (now : Nat) (hc : m ≠ .connected) :
    (s.advance now m).connection.link = s.connection.link ∧
        m ≠ .opened ∧ (m = .expiry .reconnect → s.advance now m = s) ∨
      (s.advance now m).connection.link = .disconnected ∨
      (s.advance now m).connection.link = .connecting ∧
        (s.advance now m).nextTransaction = 0 := by
  by_cases ho : m = .opened
  · subst ho
    have hlaunch : s.advance now .opened = s.launch := rfl
    rw [hlaunch, launch_eq]
    exact .inr (.inr ⟨rfl, rfl⟩)
  by_cases hr : m = .expiry .reconnect
  · subst hr
    simp only [advance, expire]
    split
    · simp only [fire, reconnect_eq]
      split
      · exact .inr (.inl rfl)
      · exact .inr (.inr ⟨rfl, rfl⟩)
    · exact .inl ⟨rfl, ho, fun _ => rfl⟩
  · have hkept := keeps_advance s now
      (R := fun s t => t.connection.link = s.connection.link ∨ t.connection.link = .disconnected)
      (fun _ => .inl rfl) (fun h h' => by
        rcases h' with h' | h'
        · rw [h']
          exact h
        · exact .inr h')
      (fun h => h.link ho hc hr) (fun _ => .inl rfl)
    exact hkept.elim (fun hk => .inl ⟨hk, ho, fun h => absurd h hr⟩) fun hk => .inr (.inl hk)

/-- What holds at each point of a legal run: a session that attempts to connect is ready to begin
its numbers from zero. -/
structure Poised (s : Session) : Prop where
  consistent : s.Consistent
  ready : s.Ready
  offline : s.connection.link ≠ .connected → TimersOffline s.timers
  fresh : s.connection.link = .connecting → s.nextTransaction = 0

theorem Unopened.poised (hu : s.Unopened) : s.Poised where
  consistent := hu.consistent
  ready := hu.ready
  offline _ := hu.timers ▸ timersOffline_empty
  fresh h := by
    rw [hu.connection] at h
    cases h

/-- When a connection begins, the first transaction on it is the request of its startup step. -/
theorem Poised.connected (h : s.Poised) (now : Nat) (hl : s.connection.link = .connecting) :
    (s.connected now).connection.link = .connected ∧
      (s.connected now).connection.startup = s.connection.startup.toggled ∧
      (s.connected now).nextTransaction = 1 ∧
      initiatedIn (Passage.actions ⟨s, now, .connected⟩) =
        [s.requestFrame s.connection.startup.request 0] := by
  obtain ⟨ho, hs⟩ := h.ready.connecting hl
  have hconnected := connected_eq s now ho hs
  rw [startHandshake_eq, sendRequest_eq _ now (by exact hs), h.fresh hl] at hconnected
  refine ⟨by rw [hconnected], by rw [hconnected], by rw [hconnected]; rfl, ?_⟩
  have hacts : Passage.actions ⟨s, now, .connected⟩ = _ :=
    actions_advance (congrArg Session.outbox hconnected |>.trans (List.append_assoc _ _ _))
  rw [hacts, initiatedIn_append, initiatedIn_send (isInitiated_of_isRequest
    (isRequest_requestFrame _ _ _)), initiatedIn_eq_nil]
  · rfl
  · rw [List.forall_mem_cons, List.forall_mem_append, List.forall_mem_singleton]
    refine ⟨rfl, ?_, rfl⟩
    split
    · simp
    · rw [List.forall_mem_map]
      exact fun _ _ => rfl

theorem Poised.advance (h : s.Poised) (hm : s.Permits m) : (s.advance now m).Poised where
  consistent := h.consistent.advance hm
  ready := h.ready.advance now m
  offline hdown := by
    by_cases hc : m = .connected
    · subst hc
      exact absurd (h.connected now hm).1 hdown
    by_cases hl : s.connection.link = .connected
    · by_cases hstop : m = .stop
      · subst hstop
        simp only [Session.advance, beginStop] at hdown ⊢
        split
        · next hp => simp [hp, hl] at hdown
        · next hp =>
          split
          · next hw => simp [hp, hw, arm, hl] at hdown
          · exact (idles_finishStop _ timersOffline_empty).timers
      · cases conduct_advance h.consistent now hm with
        | goes hg => exact absurd (hg.link hl) hdown
        | finished _ hf => exact hf.timers ▸ timersOffline_empty
        | fallen _ hf => exact fun kind hk => (hf.timers kind hk).imp_right .inl
        | suspected _ _ hk => exact absurd (hk.link hl) hdown
        | separated _ _ hk => exact absurd (hk.link hl) hdown
        | halted hm' => exact absurd hm' hstop
        | reconnected _ _ hk => exact absurd (hk.link hl) hdown
        | failed _ _ _ ht => exact ht ▸ timersOffline_empty
        | launched hm' =>
          subst hm'
          rw [show s.connection = _ from (hm : s.Unopened).connection] at hl
          cases hl
    · exact (offline_advance now h.consistent (h.offline hl) hl hm hc).timers
  fresh hl := by
    by_cases hc : m = .connected
    · subst hc
      rw [Session.advance, (h.connected now hm).1] at hl
      cases hl
    rcases link_advance s now hc with ⟨hsame, ho, hr⟩ | hd | ⟨-, hn⟩
    · have hl' : s.connection.link = .connecting := hsame ▸ hl
      by_cases hrec : m = .expiry .reconnect
      · rw [hr hrec]
        exact h.fresh hl'
      · have hdown : s.connection.link ≠ .connected := by simp [hl']
        obtain ⟨acts, hout, ha⟩ :=
          (offline_advance now h.consistent (h.offline hdown) hdown hm hc).silent
        obtain ⟨acts', hout', hd⟩ := draws_advance s now ho hrec
        rw [hout, List.append_cancel_left_eq] at hout'
        rw [← hout', ha] at hd
        rw [hd.eq_of_nil, h.fresh hl']
    · rw [hd] at hl
      cases hl
    · exact hn

/-- Without a connection no transaction begins until there is one, and none comes up else. -/
theorem Poised.silent (h : s.Poised) (now : Nat) (hl : s.connection.link ≠ .connected)
    (hm : s.Permits m) (hc : m ≠ .connected) :
    initiatedIn (Passage.actions ⟨s, now, m⟩) = [] ∧
      (s.advance now m).connection.link ≠ .connected := by
  obtain ⟨acts, ho, ha⟩ := (offline_advance now h.consistent (h.offline hl) hl hm hc).silent
  refine ⟨by rw [actions_advance ho, ha], ?_⟩
  rcases link_advance s now hc with ⟨hsame, -, -⟩ | hd | ⟨hd, -⟩
  · rwa [hsame]
  · simp [hd]
  · simp [hd]

/-! ## The numbers of a connection -/

/-- The transactions that began at some passages since a connection began carry consecutive numbers
from zero, and while the connection lasts the next number is the one after theirs. -/
structure Numbered (ps : List Passage) (s : Session) : Prop extends Poised s where
  numbered : ∃ next, Consecutive 0 (initiatedFrames ps) next ∧
    (s.connection.link = .connected → s.nextTransaction = next)

variable {ps : List Passage}

theorem initiatedFrames_append (ps qs : List Passage) :
    initiatedFrames (ps ++ qs) = initiatedFrames ps ++ initiatedFrames qs :=
  List.flatMap_append

theorem initiatedFrames_singleton (p : Passage) :
    initiatedFrames [p] = initiatedIn p.actions :=
  List.flatMap_singleton _ _

theorem Poised.numbered (h : s.Poised) (hl : s.connection.link = .connecting) :
    Numbered [⟨s, now, .connected⟩] (s.connected now) := by
  obtain ⟨-, -, hn, hfirst⟩ := h.connected now hl
  refine ⟨h.advance (m := .connected) hl, 1, ?_, fun _ => hn⟩
  rw [initiatedFrames_singleton, hfirst]
  exact .cons (transactionId?_requestFrame _ _ _) (.nil _)

theorem Numbered.advance (h : Numbered ps s) (hm : s.Permits m) (hc : m ≠ .connected) :
    Numbered (ps ++ [⟨s, now, m⟩]) (s.advance now m) := by
  obtain ⟨next, hnumbers, hnext⟩ := h.numbered
  refine ⟨h.toPoised.advance hm, ?_⟩
  rw [initiatedFrames_append, initiatedFrames_singleton]
  by_cases hl : s.connection.link = .connected
  · have hdraws : Draws s (s.advance now m) := by
      by_cases hr : m = .expiry .reconnect
      · subst hr
        have harmed := (h.consistent.sound.live hl).reconnect
        have hdue : s.timers.isDue now .reconnect = false := by
          rw [Bool.eq_false_iff]
          intro hd
          rw [Timers.isArmed_of_isDue hd] at harmed
          cases harmed
        simp only [Session.advance, expire, hdue]
        exact .refl s
      · refine draws_advance s now ?_ hr
        rintro rfl
        rw [show s.connection = _ from (hm : s.Unopened).connection] at hl
        cases hl
    obtain ⟨acts, ho, hd⟩ := hdraws
    rw [actions_advance ho]
    exact ⟨_, hnumbers.append (hnext hl ▸ hd), fun _ => rfl⟩
  · obtain ⟨hsilent, hdown⟩ := h.toPoised.silent now hl hm hc
    rw [hsilent, List.append_nil]
    exact ⟨next, hnumbers, fun hl' => absurd hl' hdown⟩

/-! ## The first transaction of a connection -/

end Session

/-- Whether the next connection begins from the start after a moment: the session is opened, or the
equipment closes the connection. -/
def Moment.startsOver : Moment → Bool
  | .opened | .socketEnd => true
  | _ => false

/-- The step with which a connection begins after so many others. -/
def StartupStep.afterOthers (count : Nat) : StartupStep :=
  if count % 2 = 0 then .select else .establish

theorem StartupStep.toggled_afterOthers (count : Nat) :
    (afterOthers count).toggled = afterOthers (count + 1) := by
  unfold afterOthers
  rcases Nat.mod_two_eq_zero_or_one count with h | h
  · rw [if_pos h, if_neg (by omega)]
    rfl
  · rw [if_neg (by omega), if_pos (by omega)]
    rfl

namespace Session

/-- How many connections have begun since the session was opened or the equipment last closed
one. -/
def connectionsBegun (ps : List Passage) : Nat :=
  (ps.rtakeWhile fun p => !p.moment.startsOver).countP fun p => p.moment.isConnected

theorem connectionsBegun_startsOver (ps : List Passage) {p : Passage}
    (h : p.moment.startsOver = true) : connectionsBegun (ps ++ [p]) = 0 := by
  unfold connectionsBegun
  rw [List.rtakeWhile_concat_neg _ _ _ (by simp [h])]
  rfl

theorem connectionsBegun_goesOn (ps : List Passage) {p : Passage}
    (h : p.moment.startsOver = false) :
    connectionsBegun (ps ++ [p]) = connectionsBegun ps + p.moment.isConnected.toNat := by
  unfold connectionsBegun
  rw [List.rtakeWhile_concat_pos _ _ _ (by simp [h]), List.countP_append]
  cases hc : p.moment.isConnected <;> simp [hc]

/-- Apart from openings, successes and ends of connections, the startup step stays as it is, and a
stop that has begun does not end. -/
theorem Deed.startup (h : Deed m s t) (ho : m ≠ .opened) (hc : m ≠ .connected)
    (he : m ≠ .socketEnd) :
    t.connection.startup = s.connection.startup ∧ (t.stopping = false → s.stopping = false) := by
  cases h with
  | shift _ hf _ =>
    exact ⟨congrArg Face.startup hf, fun h => (congrArg Face.stopping hf).symm.trans h⟩
  | tell _ _ => exact ⟨rfl, id⟩
  | answer _ _ _ _ _ _ _ _ _ => exact ⟨rfl, id⟩
  | ask _ _ => exact ⟨rfl, id⟩
  | follow _ _ _ _ _ _ _ _ _ =>
    rw [publishAlarms_eq]
    exact ⟨rfl, id⟩
  | lose graceful now ho hs =>
    rw [disconnect_eq s now ho hs]
    exact ⟨rfl, id⟩
  | finish ho =>
    rw [finishStop_eq s ho]
    exact ⟨rfl, id⟩
  | launch hm => exact absurd hm ho
  | gain hm _ _ => exact absurd hm hc
  | forget hm _ => exact absurd hm he
  | retry _ _ =>
    rw [reconnect_eq]
    split
    · exact ⟨rfl, id⟩
    · exact ⟨rfl, id⟩
  | hold _ _ _ _ => exact ⟨rfl, fun h => by cases h⟩
  | halt _ _ ho =>
    rw [finishStop_eq _ (by exact ho)]
    exact ⟨rfl, fun h => by cases h⟩
  | retire _ _ _ => exact ⟨rfl, fun h => by cases h⟩

/-- The startup step of a session with a past is that after the connections that have begun. -/
structure Alternating (past : List Passage) (s : Session) : Prop extends Poised s where
  startup : s.stopping = false →
    s.connection.startup = .afterOthers (connectionsBegun past)

variable {past : List Passage}

theorem Unopened.alternating (hu : s.Unopened) : Alternating [] s := by
  refine ⟨hu.poised, fun _ => ?_⟩
  rw [hu.connection]
  rfl

/-- When the equipment closes a connection, the next one begins from the start; while a stop goes on
there is none. -/
theorem startup_closedByEquipment (s : Session) (now : Nat)
    (hs : (s.closedByEquipment now).stopping = false) :
    (s.closedByEquipment now).connection.startup = .select := by
  unfold closedByEquipment at hs ⊢
  cases hp : s.stopping with
  | true =>
    rw [hp, if_pos rfl] at hs
    unfold finishStop at hs
    split at hs
    · simp [emit, hp] at hs
    · simp [hp] at hs
  | false =>
    rw [if_neg (by decide)]
    cases ho : s.connection.opened with
    | true => rw [disconnect_eq _ now (by exact ho) rfl]
    | false =>
      unfold disconnect
      rw [if_pos (by simp [ho])]

theorem Alternating.advance (h : Alternating past s) (hm : s.Permits m) :
    Alternating (past ++ [⟨s, now, m⟩]) (s.advance now m) := by
  refine ⟨h.toPoised.advance hm, fun hs => ?_⟩
  cases hover : m.startsOver with
  | true =>
    rw [connectionsBegun_startsOver past hover]
    cases m with
    | opened =>
      rw [Session.advance, launch_eq]
      rfl
    | socketEnd => exact startup_closedByEquipment s now hs
    | _ => cases hover
  | false =>
    rw [connectionsBegun_goesOn past hover]
    by_cases hc : m = .connected
    · subst hc
      have hrun := (h.ready.connecting hm).2
      rw [Session.advance, (h.toPoised.connected now hm).2.1, h.startup hrun,
        StartupStep.toggled_afterOthers]
      rfl
    · have hkept := keeps_advance s now (m := m)
        (R := fun s t => t.connection.startup = s.connection.startup ∧
          (t.stopping = false → s.stopping = false))
        (fun _ => ⟨rfl, id⟩) (fun h h' => ⟨h'.1.trans h.1, fun hs => h.2 (h'.2 hs)⟩)
        (fun hd => hd.startup (by rintro rfl; cases hover) hc (by rintro rfl; cases hover))
        (fun _ => ⟨rfl, id⟩)
      have hnone : m.isConnected = false := by
        cases m <;> first | rfl | exact absurd rfl hc
      rw [hkept.1, h.startup (hkept.2 hs), hnone]
      rfl

/-- The first transaction of a connection is told by the connections that have begun before it. -/
theorem Alternating.first (h : Alternating past s) (now : Nat)
    (hl : s.connection.link = .connecting) (conn : List Passage) :
    ∃ first, (initiatedFrames (⟨s, now, .connected⟩ :: conn)).head? = some first ∧
      if connectionsBegun past % 2 = 0 then hasSession SessionType.selectRequest first = true
      else carries 1 13 first = true := by
  refine ⟨s.requestFrame s.connection.startup.request 0, ?_, ?_⟩
  · have hcons : initiatedFrames (⟨s, now, .connected⟩ :: conn) =
        initiatedIn (Passage.actions ⟨s, now, .connected⟩) ++ initiatedFrames conn :=
      List.flatMap_cons
    rw [hcons, (h.toPoised.connected now hl).2.2.2]
    rfl
  · rw [h.startup (h.ready.connecting hl).2, StartupStep.afterOthers]
    split
    · exact s.parties.hasSession_control _ _ _
    · exact (carries_requestFrame s .establish 0).trans rfl

/-! ## Runs -/

/-- In a legal run the frames that begin a transaction on a connection carry the numbers 0, 1, 2 and
so on, and the first of them is the request to open the communication if the number of connections
that began before, since the session was opened or the equipment last closed one, is even, and
S1F13 if it is odd. Without a connection no transaction begins, and whatever else is sent answers
the message that is handled, with its system bytes. -/
theorem transactions_numbered (machine : String) (model : Model) (catalog : Catalog)
    (run : List Occurrence) (h : (ofCatalog machine model catalog).Legal run) :
    let ps := (ofCatalog machine model catalog).history run
    (∀ before p conn rest, ps = before ++ p :: (conn ++ rest) → p.moment.isConnected = true →
      (∀ q ∈ conn, q.moment.isConnected = false) →
      (∀ i (hi : i < (initiatedFrames (p :: conn)).length),
        transactionId? ((initiatedFrames (p :: conn)).get ⟨i, hi⟩) = some (UInt16.ofNat i)) ∧
      ∃ first, (initiatedFrames (p :: conn)).head? = some first ∧
        if connectionsBegun before % 2 = 0 then
          hasSession SessionType.selectRequest first = true
        else carries 1 13 first = true) ∧
    ∀ p ∈ ps,
      (p.moment.isConnected = false → p.before.isConnected = false →
        initiatedIn p.actions = []) ∧
      ∀ frame, .send frame ∈ p.actions → isInitiated frame = false →
        ∃ received inbound, p.moment = .frame received ∧
          Inbound.read? received = some inbound ∧ inbound.isAnsweredBy frame = true := by
  intro ps
  have hu := unopened_ofCatalog machine model catalog
  have hchain := chain_history h hu
  refine ⟨fun before p conn rest hcut hp hconn => ?_, fun p hp => ⟨fun hc hl => ?_, ?_⟩⟩
  · rw [show (ofCatalog machine model catalog).history run = _ from hcut] at hchain
    obtain ⟨hfound, hpermits, hlater⟩ := hchain.middle
    have hbefore : Alternating before (ofCatalog machine model catalog |>.reached before) :=
      hchain.split.1.record (fun _ _ _ _ ha hm => ha.advance hm) hu.alternating
    rw [← hfound] at hbefore
    obtain ⟨s, now, m⟩ := p
    obtain rfl : m = .connected := by
      cases m <;> first | rfl | cases hp
    have hnumbered : Numbered (⟨s, now, .connected⟩ :: conn) _ :=
      hlater.split.1.record_of (Q := fun q => q.moment.isConnected = false)
        (fun _ _ _ m hn hm hq => hn.advance hm (by rintro rfl; cases hq)) hconn
        (hbefore.toPoised.numbered hpermits)
    obtain ⟨next, hnumbers, -⟩ := hnumbered.numbered
    refine ⟨fun i hi => ?_, hbefore.first now hpermits conn⟩
    rw [hnumbers.transactionId?_get i hi, UInt16.zero_add]
  · obtain ⟨hinv, -⟩ := hchain.invariant (I := Poised) (fun _ _ _ hs hm => hs.advance hm) hu.poised
    obtain ⟨hpoised, hpermits, -⟩ := hinv p hp
    refine (hpoised.silent p.now (fun hc' => ?_) hpermits ?_).1
    · rw [isConnected_iff.mpr hc'] at hl
      cases hl
    · intro hm
      rw [hm] at hc
      cases hc
  · obtain ⟨acts, ho, ha⟩ := answersOnly_advance p.before p.now p.moment
    rw [actions_eq ho]
    exact ha

/-- A connection breaks while it is opened; the next one begins with S1F13, which is overdue
once. -/
def brokenSelect : List Occurrence :=
  [(0, .opened), (5, .connected), (2005, .timer), (2100, .socketError), (2100, .timer),
    (7100, .timer), (7200, .connected), (9200, .timer)]

theorem lt_length_brokenSelect :
    6 < ((ofCatalog "press" {} {}).history brokenSelect).length := by
  decide +kernel

theorem transactions_numbered_brokenSelect :
    let s := ofCatalog "press" {} {}
    s.Legal brokenSelect ∧ ∃ before p conn, s.history brokenSelect = before ++ p :: (conn ++ []) ∧
      p.moment.isConnected = true ∧ connectionsBegun before = 1 ∧
      (∃ hi : 1 < (initiatedFrames (p :: conn)).length,
        transactionId? ((initiatedFrames (p :: conn)).get ⟨1, hi⟩) = some 1) ∧
      ∃ first, (initiatedFrames (p :: conn)).head? = some first ∧ carries 1 13 first = true := by
  intro s
  have h : s.Legal brokenSelect := by decide +kernel
  have hcut := eq_cut lt_length_brokenSelect
  rw [← List.append_nil (List.drop _ _)] at hcut
  have hbegun : connectionsBegun ((s.history brokenSelect).take 6) = 1 := by decide +kernel
  obtain ⟨hconnections, -⟩ := transactions_numbered "press" {} {} brokenSelect h
  obtain ⟨hnumbers, first, hhead, hfirst⟩ :=
    hconnections _ _ _ _ hcut (by decide +kernel) (by decide +kernel)
  rw [hbegun] at hfirst
  have htwice : 1 < (initiatedFrames ((s.history brokenSelect).get ⟨6, lt_length_brokenSelect⟩ ::
      (s.history brokenSelect).drop 7)).length := by decide +kernel
  exact ⟨h, _, _, _, hcut, by decide +kernel, hbegun, ⟨htwice, hnumbers 1 htwice⟩, first, hhead,
    hfirst⟩

end Session

end GemLink
