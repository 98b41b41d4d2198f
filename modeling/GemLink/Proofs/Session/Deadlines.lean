import GemLink.Proofs.Session.Setup

/-!
The deadlines that a session sets are still to come. Whatever an operation arms is armed for a later
moment, the report that the machine is disconnected apart, which may be wanted at once, and for none
that is later than the longest delay (`Defers`). So at one moment a timer expires once, and when the
clock has been looked at, nothing but that report can be due (`not_due_tick`).

How much there is to do at one moment because of timers is counted as `dueness`: a look at the clock
makes it less as long as a timer is due (`dueness_tick`), and whatever else happens adds one at
most.
-/

namespace GemLink

/-- Whether time passes between polls, and between tests of the link. -/
structure SessionSettings.Spaced (settings : SessionSettings) : Prop where
  polls : 0 < settings.pollInterval
  linkTests : ∀ interval, settings.linkTestInterval = some interval → 0 < interval

theorem SessionSettings.spaced_ofModel (model : Model) : (ofModel model).Spaced where
  polls := Nat.lt_of_lt_of_le (by decide) (Nat.le_max_right _ minPollInterval)
  linkTests interval h := by
    simp only [ofModel] at h
    split at h
    · cases h
      exact Nat.mul_pos (Nat.lt_of_lt_of_le Nat.one_pos (Nat.le_max_right _ 1)) (by decide)
    · cases h

namespace SessionSettings

variable (settings : SessionSettings) (now : Nat)

/-- The longest time for which a timer is armed. -/
def longestDelay : Nat :=
  max (max settings.pollInterval (settings.linkTestInterval.getD 0))
    (max settings.disconnectDelay reconnectDelay)

/-- Whether a timer may be armed at the time `now` for a deadline. -/
structure Arms (kind : TimerKind) (deadline : Nat) : Prop where
  later : settings.Spaced → kind ≠ .disconnectReport → now < deadline
  soon : deadline ≤ now + settings.longestDelay

variable {settings}

/-- The delays that no model changes. -/
theorem arms_fixed {delay : Nat} (kind : TimerKind) (hpos : 0 < delay)
    (hle : delay ≤ reconnectDelay) : settings.Arms now kind (now + delay) where
  later _ _ := Nat.lt_add_of_pos_right hpos
  soon := by
    unfold longestDelay
    omega

theorem arms_poll (settings : SessionSettings) :
    settings.Arms now .poll (now + settings.pollInterval) where
  later hs _ := Nat.lt_add_of_pos_right hs.polls
  soon := by
    unfold longestDelay
    omega

theorem arms_linkTest {interval : Nat} (hi : settings.linkTestInterval = some interval) :
    settings.Arms now .linkTest (now + interval) where
  later hs _ := Nat.lt_add_of_pos_right (hs.linkTests interval hi)
  soon := by
    unfold longestDelay
    rw [hi, Option.getD_some]
    omega

theorem arms_report (settings : SessionSettings) :
    settings.Arms now .disconnectReport (now + settings.disconnectDelay) where
  later _ hne := absurd rfl hne
  soon := by
    unfold longestDelay
    omega

end SessionSettings

namespace Timers

variable {t : Timers} {now deadline : Nat} {kind other : TimerKind}

theorem isDue_iff : t.isDue now kind = true ↔
    ∃ deadline, t.deadline? kind = some deadline ∧ deadline ≤ now := by
  refine ⟨deadline?_of_isDue, ?_⟩
  rintro ⟨deadline, hd, hle⟩
  simp [isDue, hd, hle]

theorem deadline?_empty (kind : TimerKind) : ({} : Timers).deadline? kind = none := by
  cases kind <;> rfl

theorem isDue_of_cancel (h : (t.cancel kind).isDue now other = true) :
    other ≠ kind ∧ t.isDue now other = true := by
  rw [isDue_iff, deadline?_cancel] at h
  obtain ⟨_, hd, hle⟩ := h
  split at hd
  · cases hd
  · next hne => exact ⟨hne, isDue_iff.mpr ⟨_, hd, hle⟩⟩

theorem isTellable_iff : t.isTellable = true ↔
    ∀ kind deadline, t.deadline? kind = some deadline → deadline ≤ lastMoment := by
  unfold isTellable
  rw [List.all_eq_true]
  simp only [Option.all_eq_true, decide_eq_true_eq]
  refine ⟨fun h kind deadline hd => h kind (by cases kind <;> decide) deadline hd,
    fun h kind _ deadline hd => h kind deadline hd⟩

theorem isTellable_cancel (h : t.isTellable = true) (kind : TimerKind) :
    (t.cancel kind).isTellable = true := by
  rw [isTellable_iff] at h ⊢
  intro other deadline hd
  rw [deadline?_cancel] at hd
  split at hd
  · cases hd
  · exact h other deadline hd

/-- The deadline of no armed timer is before the earliest. -/
theorem next?_le (h : t.deadline? kind = some deadline) :
    ∃ earliest, t.next? = some earliest ∧ earliest ≤ deadline := by
  have hm : deadline ∈ TimerKind.all.filterMap t.deadline? :=
    List.mem_filterMap.mpr ⟨kind, by cases kind <;> decide, h⟩
  unfold next?
  cases he : (TimerKind.all.filterMap t.deadline?).min? with
  | none =>
    rw [List.min?_eq_none_iff] at he
    rw [he] at hm
    cases hm
  | some earliest => exact ⟨earliest, rfl, (List.min?_eq_some_iff.mp he).2 deadline hm⟩

/-- The earliest deadline is that of a timer. -/
theorem exists_of_next? (h : t.next? = some deadline) :
    ∃ kind, t.deadline? kind = some deadline := by
  obtain ⟨kind, -, hk⟩ := List.mem_filterMap.mp (List.min?_eq_some_iff.mp h).1
  exact ⟨kind, hk⟩

end Timers

namespace Session

/-- `t` is what `s` becomes at the time `now` by something that arms timers for later moments only,
the report that the machine is disconnected apart, and for none later than the longest delay. -/
structure Defers (now : Nat) (s t : Session) : Prop where
  settings : t.settings = s.settings
  timers : ∀ {kind deadline}, t.timers.deadline? kind = some deadline →
    s.timers.deadline? kind = some deadline ∨ s.settings.Arms now kind deadline

variable {s t u : Session} {now : Nat}

namespace Defers

/-- What is due then was due before, the report apart. -/
theorem due (h : Defers now s t) (hs : s.settings.Spaced) (kind : TimerKind)
    (hk : kind ≠ .disconnectReport) (hd : t.timers.isDue now kind = true) :
    s.timers.isDue now kind = true := by
  obtain ⟨deadline, hd, hle⟩ := Timers.isDue_iff.mp hd
  rcases h.timers hd with hwas | harms
  · exact Timers.isDue_iff.mpr ⟨deadline, hwas, hle⟩
  · exact absurd hle (Nat.not_le.mpr (harms.later hs hk))

/-- As long as the longest delay does not lead beyond what the clock can tell, it can tell all
deadlines. -/
theorem tellable (h : Defers now s t) (hnow : now + s.settings.longestDelay ≤ lastMoment)
    (hs : s.timers.isTellable = true) : t.timers.isTellable = true := by
  rw [Timers.isTellable_iff] at hs ⊢
  intro kind deadline hd
  rcases h.timers hd with hwas | harms
  · exact hs kind deadline hwas
  · exact Nat.le_trans harms.soon hnow

theorem refl (s : Session) : Defers now s s :=
  ⟨rfl, .inl⟩

theorem trans (h : Defers now s t) (h' : Defers now t u) : Defers now s u :=
  ⟨h'.settings.trans h.settings, fun hd =>
    (h'.timers hd).elim h.timers fun harms => .inr (h.settings ▸ harms)⟩

/-- Where no timer is touched. -/
theorem still (hs : t.settings = s.settings) (ht : t.timers = s.timers) : Defers now s t :=
  ⟨hs, fun hd => .inl (ht ▸ hd)⟩

theorem news (h : News s t) : Defers now s t := by
  obtain ⟨acts, c, rfl, -⟩ := h
  exact .still rfl rfl

/-- Where nothing stays armed. -/
theorem cleared (hs : t.settings = s.settings) (ht : t.timers = {}) : Defers now s t := by
  refine ⟨hs, fun hd => ?_⟩
  rw [ht, Timers.deadline?_empty] at hd
  cases hd

/-- Where a timer is armed. -/
theorem armed {kind : TimerKind} {deadline : Nat} (h : s.settings.Arms now kind deadline)
    (hs : t.settings = s.settings) (ht : t.timers = s.timers.arm kind deadline) :
    Defers now s t := by
  refine ⟨hs, fun hd => ?_⟩
  rw [ht, Timers.deadline?_arm] at hd
  split at hd
  · next heq =>
    cases hd
    exact .inr (heq ▸ h)
  · exact .inl hd

theorem cancel (s : Session) (kind : TimerKind) : Defers now s (s.cancel kind) := by
  refine ⟨rfl, fun {other _} (hd : (s.timers.cancel kind).deadline? other = _) => ?_⟩
  rw [Timers.deadline?_cancel] at hd
  split at hd
  · cases hd
  · exact .inl hd

theorem arm {kind : TimerKind} {deadline : Nat} (h : s.settings.Arms now kind deadline) :
    Defers now s (s.arm kind deadline) :=
  .armed h rfl rfl

end Defers

variable (s) (now)

/-! ## Questions -/

theorem defers_finishStop : Defers now s s.finishStop := by
  unfold finishStop
  split
  · exact .cleared rfl rfl
  · exact .refl s

theorem defers_sendWrite (w : PendingWrite) : Defers now s (s.sendWrite w now) := by
  rw [sendWrite_eq]
  exact .armed (SessionSettings.arms_fixed now .writeTimeout (by decide) (by decide)) rfl rfl

theorem defers_enterIdle : Defers now s (s.enterIdle now) := by
  have hidle : Defers now s { s with state := .idle } := .still rfl rfl
  unfold enterIdle
  dsimp only
  split
  · exact hidle.trans (defers_finishStop _ now)
  · split
    · next w rest _ =>
      have hw : Defers now s { s with state := .idle, pendingWrites := rest } := .still rfl rfl
      exact hw.trans (defers_sendWrite _ now w)
    · split
      · exact hidle.trans (.arm (s.settings.arms_poll now))
      · exact hidle

theorem defers_sendRequest (request : Request) : Defers now s (s.sendRequest request now) := by
  cases hs : s.stopping with
  | true =>
    unfold sendRequest
    rw [if_pos hs]
    exact defers_enterIdle s now
  | false =>
    rw [sendRequest_eq s now hs]
    exact (Defers.cancel s .establishFallback).trans
      (.armed (SessionSettings.arms_fixed now .commTimeout (by decide) (by decide)) rfl rfl)

theorem defers_startHandshake (request : Request) :
    Defers now s (s.startHandshake request now) := by
  unfold startHandshake
  refine Defers.trans ?_ (defers_sendRequest _ now request)
  have hbegun : Defers now s { s with handshakeComplete := false } := .still rfl rfl
  exact (hbegun.trans (.cancel _ .poll)).trans (.cancel _ .linkTest)

theorem defers_replied : Defers now s s.replied := by
  have hcancel : Defers now s ((s.cancel .commTimeout).cancel .establishFallback) :=
    (Defers.cancel s _).trans (.cancel _ _)
  exact hcancel.trans (.still rfl rfl)

theorem defers_completeHandshake : Defers now s (s.completeHandshake now) := by
  rw [completeHandshake_eq]
  refine Defers.trans ?_ (defers_enterIdle _ now)
  cases hi : s.settings.linkTestInterval with
  | some interval => exact .armed (SessionSettings.arms_linkTest now hi) rfl rfl
  | none => exact .still rfl rfl

theorem defers_afterPoll (request : Request) : Defers now s (s.afterPoll request now) := by
  unfold afterPoll afterStatus
  split
  · split
    · exact defers_enterIdle s now
    · exact defers_sendRequest s now _
  · exact defers_enterIdle s now

/-! ## The connection -/

theorem defers_disconnect (graceful : Bool) : Defers now s (s.disconnect graceful now) := by
  cases ho : s.connection.opened with
  | false =>
    unfold disconnect
    rw [if_pos (by simp [ho])]
    exact .refl s
  | true =>
    cases hs : s.stopping with
    | true =>
      rw [disconnect_of_stopping s now hs]
      exact defers_finishStop s now
    | false =>
      rw [disconnect_eq s now ho hs]
      refine ⟨rfl, fun {kind deadline} hd => ?_⟩
      cases kind with
      | reconnect =>
        cases hd
        exact .inr (SessionSettings.arms_fixed now .reconnect (by decide) (Nat.le_refl _))
      | disconnectReport =>
        -- An earlier report stays as it is.
        cases hr : s.timers.disconnectReport with
        | some earlier =>
          simp only [Timers.deadline?, hr, Option.getD_some] at hd
          exact .inl (hr.trans hd)
        | none =>
          simp only [Timers.deadline?, hr, Option.getD_none] at hd
          cases hd
          exact .inr (s.settings.arms_report now)
      | _ => cases hd

theorem defers_connected : Defers now s (s.connected now) := by
  by_cases h : (!s.connection.opened || s.stopping) = true
  · unfold connected
    rw [if_pos h]
    exact .refl s
  · obtain ⟨ho, hs⟩ : s.connection.opened = true ∧ s.stopping = false := by simpa using h
    rw [connected_eq s now ho hs]
    refine Defers.trans ?_ (defers_startHandshake _ now _)
    exact (Defers.cancel s .disconnectReport).trans (.still rfl rfl)

theorem defers_closedByEquipment : Defers now s (s.closedByEquipment now) := by
  unfold closedByEquipment
  split
  · exact defers_finishStop s now
  · refine Defers.trans ?_ (defers_disconnect _ now false)
    exact .still rfl rfl

theorem defers_beginStop : Defers now s (s.beginStop now) := by
  unfold beginStop
  dsimp only
  split
  · exact .refl s
  · have hcleared : Defers now s { s with stopping := true, timers := {}, pendingWrites := [] } :=
      .cleared rfl rfl
    split
    · exact hcleared.trans (.arm (SessionSettings.arms_fixed now .stopGrace (by decide) (by decide)))
    · exact hcleared.trans (defers_finishStop _ now)

/-! ## Frames, timers and writes -/

variable {s now}

theorem Answer.defers {m : Inbound} (h : s.Answer m now t) : Defers now s t := by
  have hr : Defers now s s.replied := defers_replied s now
  cases h with
  | selected _ _ =>
    have hopen : Defers now s { s.replied with state := .awaitingEquipment } :=
      hr.trans (.still rfl rfl)
    exact hopen.trans (.arm (SessionSettings.arms_fixed now _ (by decide) (by decide)))
  | approached _ _ =>
    have hsent : Defers now s (s.replied.send
        (s.parties.reply 1 14 m.header.system Body.establishAcknowledge)) :=
      hr.trans (.still rfl rfl)
    exact hsent.trans (.arm (SessionSettings.arms_fixed now _ (by decide) (by decide)))
  | advanced request next _ _ _ => exact hr.trans (defers_sendRequest _ now next)
  | completed request _ _ _ => exact hr.trans (defers_completeHandshake _ now)
  | failed request _ _ _ =>
    exact (hr.trans (.news (News.emit _ rfl))).trans (defers_afterPoll _ now request)
  | polled request _ _ _ _ =>
    exact (hr.trans (.news (news_publishPoll _ m _ _))).trans (defers_afterPoll _ now request)
  | mismatched request _ _ _ _ =>
    exact hr.trans (.arm (SessionSettings.arms_fixed now _ (by decide) (by decide)))
  | written _ _ =>
    refine Defers.trans ?_ (defers_enterIdle _ now)
    exact (Defers.cancel s .writeTimeout).trans (.news (News.emit _ rfl))

theorem Heard.defers {m : Inbound} (h : s.Heard m t) : Defers now s t := by
  cases h with
  | asked _ => exact .still rfl rfl
  | timedOut _ => exact .cancel s .commTimeout
  | malformed _ => exact .still rfl rfl
  | alarmed _ alarms _ ht =>
    refine Defers.trans ?_ (.news ht)
    exact .still rfl rfl
  | reported _ u ht => exact (Defers.news ht).trans (.still rfl rfl)

theorem Handled.defers {frame : Bytes} (h : s.Handled now frame t) : Defers now s t := by
  have hc : Defers now s (s.count .framesReceived 1) := .still rfl rfl
  cases h with
  | heard m _ _ ht => exact hc.trans ht.defers
  | answered m _ _ ht => exact hc.trans ht.defers
  | ignored counters => exact .still rfl rfl

theorem Written.defers (h : s.Written now t) : Defers now s t := by
  cases h with
  | refused _ ht => exact .news ht
  | sent _ ht _ _ w => exact (Defers.news ht).trans (defers_sendWrite _ now w)
  | queued _ ht _ _ w => exact (Defers.news ht).trans (.still rfl rfl)

variable (s now)

theorem defers_requestOverdue : Defers now s (s.requestOverdue now) := by
  have hraised : ∀ retries : Nat, Defers now s
      { (s.count .requestTimeouts 1).raise .noResponse none with retries } :=
    fun _ => .still rfl rfl
  unfold requestOverdue
  dsimp only
  split
  · exact (hraised 0).trans (defers_disconnect _ now true)
  · split
    · exact (hraised _).trans (defers_sendRequest _ now _)
    · exact (hraised _).trans (defers_enterIdle _ now)

theorem defers_poll : Defers now s (s.poll now) := by
  unfold poll
  repeat' split
  · exact .refl s
  · exact defers_sendRequest s now _
  · exact defers_sendRequest s now _
  · exact defers_enterIdle s now

theorem defers_testLink : Defers now s (s.testLink now) := by
  unfold testLink
  split
  · next interval hi => exact .armed (SessionSettings.arms_linkTest now hi) rfl rfl
  · exact .refl s

/-- What a timer does arms timers for later moments, even where it arms itself. -/
theorem defers_fire (kind : TimerKind) : Defers now s (s.fire kind now) := by
  cases kind with
  | commTimeout => exact defers_requestOverdue s now
  | establishFallback => exact defers_sendRequest s now .establish
  | poll => exact defers_poll s now
  | dataComplete => exact .still rfl rfl
  | writeTimeout =>
    have hraised : Defers now s (s.raise .writeFailed none) := .still rfl rfl
    simp only [fire, writeOverdue]
    split
    · exact hraised.trans (defers_enterIdle _ now)
    · exact hraised
  | reconnect =>
    simp only [fire, reconnect_eq]
    split
    · exact .cleared rfl rfl
    · exact .still rfl rfl
  | separateRequest =>
    have hsent : Defers now s (s.sendControl SessionType.separateRequest) := .still rfl rfl
    exact hsent.trans (.arm (SessionSettings.arms_fixed now _ (by decide) (by decide)))
  | restartHandshake => exact defers_startHandshake s now .select
  | linkTest => exact defers_testLink s now
  | disconnectReport =>
    simp only [fire, reportDisconnected_eq]
    exact .still rfl rfl
  | stopGrace => exact defers_finishStop s now

theorem defers_expire (kind : TimerKind) : Defers now s (expire now s kind) := by
  unfold expire
  split
  · exact (Defers.cancel s kind).trans (defers_fire _ now kind)
  · exact .refl s

/-! ## Moments -/

/-- Whatever happens to a session arms timers for later moments. -/
theorem defers_advance (m : Moment) : Defers now s (s.advance now m) := by
  cases m with
  | opened =>
    simp only [advance, launch_eq]
    exact .still rfl rfl
  | connected => exact defers_connected s now
  | connectFailed => exact defers_disconnect s now false
  | socketError => exact defers_disconnect s now false
  | socketEnd => exact defers_closedByEquipment s now
  | arrival received =>
    simp only [advance, accept]
    split <;> exact .still rfl rfl
  | frame frame => exact (handled_handleFrame s now frame).defers
  | settled =>
    have hcancel : Defers now s (s.cancel .dataComplete) := .cancel s _
    simp only [advance, awaitRest]
    split
    · exact hcancel
    · exact hcancel.trans (.arm (SessionSettings.arms_fixed now _ (by decide) (by decide)))
  | expiry kind => exact defers_expire s now kind
  | write name value => exact (written_write s name value now).defers
  | stop => exact defers_beginStop s now

theorem defers_step (event : SessionEvent) : Defers now s (s.step now event) := by
  rw [step_eq_foldl]
  generalize s.moments now event = ms
  induction ms generalizing s with
  | nil => exact .refl s
  | cons m rest ih => exact (defers_advance s now m).trans (ih _)

/-- After timers have been looked at one after the other, only those are due that were due before
and have not been looked at; the report apart. -/
theorem not_due_of_expired (hs : s.settings.Spaced) {kind : TimerKind}
    (hk : kind ≠ .disconnectReport) (kinds : List TimerKind)
    (hd : (kinds.foldl (expire now) s).timers.isDue now kind = true) :
    s.timers.isDue now kind = true ∧ kind ∉ kinds := by
  induction kinds generalizing s with
  | nil => exact ⟨hd, List.not_mem_nil⟩
  | cons first rest ih =>
    have hexpire := defers_expire s now first
    obtain ⟨hnext, hrest⟩ := ih (expire now s first) (by rwa [hexpire.settings]) hd
    refine ⟨hexpire.due hs kind hk hnext, ?_⟩
    rw [List.mem_cons, not_or]
    refine ⟨?_, hrest⟩
    rintro rfl
    unfold expire at hnext
    split at hnext
    · -- It was disarmed before it did what it was set for.
      have hcancelled := (defers_fire (s.cancel kind) now kind).due hs kind hk hnext
      exact (Timers.isDue_of_cancel hcancelled).1 rfl
    · next hnot => exact hnot hnext

/-- When the clock has been looked at, nothing but the report is due. -/
theorem not_due_tick (hs : s.settings.Spaced) {kind : TimerKind} (hk : kind ≠ .disconnectReport) :
    (s.tick now).timers.isDue now kind = false := by
  rw [Bool.eq_false_iff]
  intro hd
  obtain ⟨hwas, hnot⟩ := not_due_of_expired s now hs hk (s.timers.expired now) hd
  obtain ⟨deadline, hd, hle⟩ := Timers.deadline?_of_isDue hwas
  exact hnot (Timers.mem_expired hd hle)

theorem not_due_expire_report :
    (expire now s .disconnectReport).timers.isDue now .disconnectReport = false := by
  rw [Bool.eq_false_iff]
  unfold expire
  split
  · intro hd
    simp only [fire, reportDisconnected_eq, cancel] at hd
    exact (Timers.isDue_of_cancel hd).1 rfl
  · next hnot => exact hnot

/-- The report is made once, when nothing else is due that could set it again. -/
theorem not_due_tick_report
    (honly : ∀ kind, s.timers.isDue now kind = true → kind = .disconnectReport) :
    (s.tick now).timers.isDue now .disconnectReport = false := by
  have hrest : ∀ (kinds : List TimerKind) (t : Session),
      (∀ kind ∈ kinds, kind = .disconnectReport) →
      t.timers.isDue now .disconnectReport = false →
      (kinds.foldl (expire now) t).timers.isDue now .disconnectReport = false := by
    intro kinds
    induction kinds with
    | nil => exact fun _ _ ht => ht
    | cons kind rest ih =>
      intro t hkinds _
      rw [List.forall_mem_cons] at hkinds
      obtain ⟨rfl, hkinds⟩ := hkinds
      exact ih _ hkinds (not_due_expire_report t now)
  have hexpired : ∀ kind ∈ s.timers.expired now, kind = .disconnectReport :=
    fun kind hk => honly kind (Timers.isDue_of_mem_expired hk)
  unfold tick
  cases he : s.timers.expired now with
  | nil =>
    rw [List.foldl_nil, Bool.eq_false_iff]
    intro hd
    obtain ⟨deadline, hd, hle⟩ := Timers.deadline?_of_isDue hd
    have hm := Timers.mem_expired hd hle
    rw [he] at hm
    cases hm
  | cons kind rest =>
    rw [he, List.forall_mem_cons] at hexpired
    obtain ⟨rfl, hkinds⟩ := hexpired
    exact hrest rest _ hkinds (not_due_expire_report s now)

/-! ## What is left to do at one moment -/

/-- Whether a timer is due, the report that the machine is disconnected apart. -/
def isPressed : Bool :=
  TimerKind.all.any fun kind => kind != .disconnectReport && s.timers.isDue now kind

/-- How much timers leave a session to do at one moment: the report that the machine is disconnected
counts less than the others, since giving the connection up may set it for the present. -/
def dueness : Nat :=
  2 * (s.isPressed now).toNat + (s.timers.isDue now .disconnectReport).toNat

variable {s now}

theorem isPressed_iff : s.isPressed now = true ↔
    ∃ kind, kind ≠ .disconnectReport ∧ s.timers.isDue now kind = true := by
  unfold isPressed
  rw [List.any_eq_true]
  constructor
  · rintro ⟨kind, -, hk⟩
    exact ⟨kind, by simpa using hk⟩
  · rintro ⟨kind, hk, hd⟩
    exact ⟨kind, by cases kind <;> decide, by simp [hk, hd]⟩

theorem Defers.dueness_le (h : Defers now s t) (hs : s.settings.Spaced) :
    t.dueness now ≤ s.dueness now + 1 := by
  have hpressed : t.isPressed now = true → s.isPressed now = true := by
    rw [isPressed_iff, isPressed_iff]
    rintro ⟨kind, hk, hd⟩
    exact ⟨kind, hk, h.due hs kind hk hd⟩
  have hle : (t.isPressed now).toNat ≤ (s.isPressed now).toNat := by
    cases ht : t.isPressed now with
    | true => exact Nat.le_of_eq (congrArg Bool.toNat (hpressed ht).symm)
    | false => exact Nat.zero_le _
  have hreport := Bool.toNat_le (t.timers.isDue now .disconnectReport)
  unfold dueness
  omega

/-- A look at the clock leaves less to do, if a timer is due. -/
theorem dueness_tick (hs : s.settings.Spaced) {kind : TimerKind}
    (hd : s.timers.isDue now kind = true) : (s.tick now).dueness now < s.dueness now := by
  have hnot : (s.tick now).isPressed now = false := by
    rw [Bool.eq_false_iff, ne_eq, isPressed_iff]
    rintro ⟨other, hk, ho⟩
    rw [not_due_tick s now hs hk] at ho
    cases ho
  have hreport := Bool.toNat_le ((s.tick now).timers.isDue now .disconnectReport)
  unfold dueness
  cases hp : s.isPressed now with
  | true =>
    rw [hnot]
    simp only [Bool.toNat_true, Bool.toNat_false]
    omega
  | false =>
    -- Only the report is due, and it is not set again.
    have honly : ∀ other, s.timers.isDue now other = true → other = .disconnectReport := by
      intro other ho
      rw [Bool.eq_false_iff, ne_eq, isPressed_iff] at hp
      exact Decidable.byContradiction fun hne => hp ⟨other, hne, ho⟩
    obtain rfl := honly kind hd
    rw [hnot, not_due_tick_report s now honly, hd]
    decide

end Session

end GemLink
