import GemLink.Proofs.Session.Handshake
import GemLink.Proofs.Session.Requests
import GemLink.Proofs.Session.Tally
import GemLink.Proofs.Session.Watch
import GemLink.Proofs.Session.Writes

/-!
How often the first request of a connection is sent when the equipment never answers. While it is
silent only the timer of the request is armed (`Trying`), so that nothing happens but that the
request is overdue and is sent again; after too many times the connection is given up
(`retries_left_on_connection`). The count does not begin with the connection: what was overdue on an
earlier one that was lost in the meantime counts as well, so that a connection may be given up
earlier than the limit says (`not_fullBudget_impatientTalk`).
-/

namespace GemLink

/-- Whether the open request is overdue at a passage. -/
def Passage.isOverdue (p : Passage) : Bool :=
  match p.moment with
  | .expiry .commTimeout => p.before.timers.isDue p.now .commTimeout
  | _ => false

/-- Whether an action closes the connection. -/
def Action.isClose : Action → Bool
  | .close _ => true
  | _ => false

theorem Moment.eq_connected {m : Moment} (h : m.isConnected = true) : m = .connected := by
  cases m <;> first | rfl | cases h

theorem Timers.eq_empty {t : Timers} (h : ∀ kind, t.isArmed kind = false) : t = {} := by
  apply ext_deadline?
  intro kind
  have hn : t.deadline? kind = none := by simpa [isArmed] using h kind
  rw [hn]
  cases kind <;> rfl

theorem Action.isClose_of_isMute {a : Action} (h : a.isMute = true) : a.isClose = false := by
  cases a <;> first | rfl | cases h

namespace Session

variable {s t : Session} {now : Nat} {m : Moment} {request : Request} {retries : Nat}

theorem eq_of_isOverdue (h : Passage.isOverdue ⟨s, now, m⟩ = true) :
    m = .expiry .commTimeout ∧ s.timers.isDue now .commTimeout = true := by
  unfold Passage.isOverdue at h
  dsimp only at h
  split at h
  · exact ⟨rfl, h⟩
  · cases h

/-! ## The limit -/

/-- The counter of overdue requests never passes the limit. -/
theorem Scores.retries_le (h : s.Scores now m t) (hs : s.retries ≤ maxRequestRetries) :
    t.retries ≤ maxRequestRetries := by
  cases h with
  | kept h => exact h.retries ▸ hs
  | answered h =>
    rw [h.retries]
    exact Nat.zero_le _
  | established _ h _ =>
    rw [h.retries]
    exact Nat.zero_le _
  | overdue _ _ h =>
    rw [h.retries]
    dsimp only
    split
    · exact Nat.zero_le _
    · omega
  | reconnected _ _ ht =>
    rw [ht, reconnect_eq]
    split <;> exact hs
  | launched _ ht =>
    rw [ht, launch_eq]
    exact hs

/-! ## A connection without an answer -/

/-- The frame of a request is the same whenever it is sent, but for the transaction. -/
theorem requestFrame_advance (s : Session) (now : Nat) (m : Moment) (request : Request) :
    (s.advance now m).requestFrame request = s.requestFrame request := by
  obtain ⟨hc, hp⟩ := setup_fixed s now m
  funext transactionId
  exact requestFrame_congr hc hp request transactionId

/-- The first request of a connection waits for its answer, and has been overdue so many times. -/
structure Trying (request : Request) (retries : Nat) (s : Session) : Prop where
  opened : s.connection.opened = true
  link : s.connection.link = .connected
  staying : s.stopping = false
  state : s.state = .awaitingReply request
  retries : s.retries = retries
  armed : ∃ deadline, s.timers = { commTimeout := some deadline }

/-- The only request in these actions is the last one, and none of them closes the connection. -/
theorem asks_only {front : List Action} (h : ∀ a ∈ front, a.isMute = true) (s : Session)
    (request : Request) (transactionId : UInt16) :
    requestsIn (front ++ [.send (s.requestFrame request transactionId)]) =
        [s.requestFrame request transactionId] ∧
      ∀ a ∈ front ++ [.send (s.requestFrame request transactionId)], a.isClose = false := by
  constructor
  · rw [requestsIn_append, requestsIn_eq_nil fun a ha => .inl (h a ha),
      requestsIn_send (isRequest_requestFrame s request _), List.nil_append]
  · rw [List.forall_mem_append, List.forall_mem_singleton]
    exact ⟨fun a ha => Action.isClose_of_isMute (h a ha), rfl⟩

/-- Only the report that the machine is disconnected can be armed while a connection is waited
for. -/
theorem Consistent.timers_connecting (h : s.Consistent) (hl : s.connection.link = .connecting)
    (hs : s.stopping = false) : s.timers.cancel .disconnectReport = {} := by
  apply Timers.eq_empty
  intro kind
  rw [Bool.eq_false_iff]
  intro ha
  obtain ⟨hne, ha⟩ : kind ≠ .disconnectReport ∧ s.timers.isArmed kind = true := by simpa using ha
  rcases (h.settled hs).fewTimers (by simp [hl]) kind ha with rfl | rfl
  · have hd := (h.sound.reconnect ha).1
    simp [hl] at hd
  · exact hne rfl

/-- When a connection comes up its first request is sent, and only the timer of it is armed. -/
theorem trying_connected (now : Nat) (h : s.Consistent)
    (hl : s.connection.link = .connecting) (hs : s.stopping = false) :
    Trying s.connection.startup.request s.retries (s.advance now .connected) ∧
      requestsIn (Passage.actions ⟨s, now, .connected⟩) =
        [s.requestFrame s.connection.startup.request s.nextTransaction] ∧
      ∀ a ∈ Passage.actions ⟨s, now, .connected⟩, a.isClose = false := by
  have ho := h.sound.opened (by simp [hl])
  have hadv : s.advance now .connected = _ := connected_eq s now ho hs
  rw [startHandshake_eq, sendRequest_eq _ now (by exact hs)] at hadv
  dsimp only at hadv
  rw [h.timers_connecting hl hs] at hadv
  refine ⟨?_, ?_⟩
  · rw [hadv]
    exact ⟨ho, rfl, hs, rfl, rfl, now + commTimeout, rfl⟩
  · have hout := (congrArg outbox hadv).trans (List.append_assoc _ _ _)
    rw [actions_advance hout]
    refine asks_only ?_ s _ _
    rw [List.forall_mem_cons, List.forall_mem_append, List.forall_mem_singleton]
    refine ⟨rfl, ?_, rfl⟩
    split
    · simp
    · intro a ha
      obtain ⟨v, -, rfl⟩ := List.mem_map.mp ha
      rfl

namespace Trying

variable (h : s.Trying request retries)
include h

theorem isArmed : s.timers.isArmed .commTimeout = true := by
  obtain ⟨deadline, ht⟩ := h.armed
  rw [ht]
  rfl

/-- Nothing but the request can be overdue. -/
theorem isOverdue_of_isDue {kind : TimerKind} (hd : s.timers.isDue now kind = true) :
    kind = .commTimeout := by
  obtain ⟨deadline, ht⟩ := h.armed
  have ha := Timers.isArmed_of_isDue hd
  rw [ht] at ha
  cases kind <;> first | rfl | cases ha

theorem retry? : (s.cancel .commTimeout).state.retry? = some request := by
  simp [Session.cancel, h.state, CommState.retry?]

/-- An overdue request is sent again as long as there are retries left. -/
theorem resend (hd : s.timers.isDue now .commTimeout = true) (hlt : retries < maxRequestRetries) :
    (s.advance now (.expiry .commTimeout)).Trying request (retries + 1) ∧
      requestsIn (Passage.actions ⟨s, now, .expiry .commTimeout⟩) =
        [s.requestFrame request s.nextTransaction] ∧
      ∀ a ∈ Passage.actions ⟨s, now, .expiry .commTimeout⟩, a.isClose = false := by
  have hleft : ¬ maxRequestRetries < s.retries + 1 := by
    rw [h.retries]
    omega
  have hadv := advance_expiry hd
  rw [fire, requestOverdue_eq (s.cancel .commTimeout) now h.retry?, if_neg (by exact hleft),
    sendRequest_eq _ now (by exact h.staying)] at hadv
  refine ⟨?_, ?_⟩
  · obtain ⟨deadline, ht⟩ := h.armed
    rw [hadv]
    refine ⟨h.opened, h.link, h.staying, rfl, congrArg (· + 1) h.retries, now + commTimeout, ?_⟩
    simp only [Session.cancel, ht]
    rfl
  · have hout := (congrArg outbox hadv).trans (List.append_assoc _ _ _)
    rw [actions_advance hout]
    exact asks_only (by simp [Action.isMute, Action.isLink]) s request _

/-- The connection is given up when there are none. -/
theorem giveUp (hd : s.timers.isDue now .commTimeout = true) (hle : maxRequestRetries ≤ retries) :
    Passage.actions ⟨s, now, .expiry .commTimeout⟩ =
        [.raise .noResponse none, .close true, .raise .connectivity none, .status false] ∧
      (s.advance now (.expiry .commTimeout)).connection.link = .disconnected ∧
      (s.advance now (.expiry .commTimeout)).timers.deadline? .reconnect =
        some (now + reconnectDelay) := by
  have hnone : maxRequestRetries < s.retries + 1 := by
    rw [h.retries]
    omega
  have hadv := advance_expiry hd
  rw [fire, requestOverdue_eq (s.cancel .commTimeout) now h.retry?, if_pos (by exact hnone),
    disconnect_eq _ now (by exact h.opened) (by exact h.staying)] at hadv
  have hout := (congrArg outbox hadv).trans (List.append_assoc _ _ _)
  refine ⟨actions_advance hout, ?_, ?_⟩
  · rw [hadv]
  · rw [hadv]
    rfl

/-- News for the host leaves the request waiting. -/
theorem news (hn : News s t) : t.Trying request retries := by
  obtain ⟨acts, c, rfl, -⟩ := hn
  exact ⟨h.opened, h.link, h.staying, h.state, h.retries, h.armed⟩

/-- A write of the host is refused or waits, and of either only the host hears. -/
theorem written (hw : s.Written now t) :
    t.Trying request retries ∧
      ∃ acts, t.outbox = s.outbox ++ acts ∧ ∀ a ∈ acts, a.isNews = true := by
  cases hw with
  | refused _ hn =>
    have ht := h.news hn
    obtain ⟨acts, c, rfl, ha⟩ := hn
    exact ⟨ht, acts, rfl, ha⟩
  | sent _ _ _ hi _ => simp [h.state] at hi
  | queued u hn _ _ w =>
    obtain ⟨h1, h2, h3, h4, h5, h6⟩ := h.news hn
    obtain ⟨acts, c, rfl, ha⟩ := hn
    exact ⟨⟨h1, h2, h3, h4, h5, h6⟩, acts, rfl, ha⟩

/-- Nothing else happens while the equipment is silent. -/
theorem wait (hm : m.isSilent = true) (hd : Passage.isOverdue ⟨s, now, m⟩ = false) :
    (s.advance now m).Trying request retries ∧ requestsIn (Passage.actions ⟨s, now, m⟩) = [] ∧
      ∀ a ∈ Passage.actions ⟨s, now, m⟩, a.isClose = false := by
  cases m with
  | expiry kind =>
    have hnot : s.timers.isDue now kind = false := by
      rw [Bool.eq_false_iff]
      intro hdue
      obtain rfl := h.isOverdue_of_isDue hdue
      simp [Passage.isOverdue, hdue] at hd
    have hadv : s.advance now (.expiry kind) = s := if_neg (by simp [hnot])
    rw [actions_advance (by rw [hadv, List.append_nil]), hadv]
    exact ⟨h, rfl, by simp⟩
  | write name value =>
    obtain ⟨ht, acts, hout, ha⟩ := h.written (written_write s name value now)
    have hmute : ∀ a ∈ acts, a.isMute = true := fun a hm => Action.isMute_of_isNews (ha a hm)
    rw [actions_advance (m := .write name value) hout]
    exact ⟨ht, requestsIn_eq_nil fun a hm => .inl (hmute a hm),
      fun a hm => Action.isClose_of_isMute (hmute a hm)⟩
  | _ => cases hm

/-- As long as there are retries left, the request is sent once more for each time that it is
overdue, and nothing closes the connection. -/
theorem chain {ps : List Passage} (hc : Chain s ps t)
    (hq : ∀ p ∈ ps, p.moment.isSilent = true)
    (hn : retries + ps.countP Passage.isOverdue ≤ maxRequestRetries) :
    t.Trying request (retries + ps.countP Passage.isOverdue) ∧
      (∃ ids : List UInt16, ids.length = ps.countP Passage.isOverdue ∧
        sentRequests ps = ids.map (s.requestFrame request)) ∧
      ∀ p ∈ ps, ∀ a ∈ p.actions, a.isClose = false := by
  -- each time that the request is overdue the rest of the chain begins with one retry more
  induction hc generalizing retries with
  | nil => exact ⟨h, ⟨[], rfl, rfl⟩, by simp⟩
  | @cons s t now m rest hm hc ih =>
    rw [List.forall_mem_cons] at hq
    have hsame := requestFrame_advance s now m request
    rw [sentRequests_cons]
    cases hd : Passage.isOverdue ⟨s, now, m⟩ with
    | false =>
      rw [List.countP_cons_of_neg (by simp [hd])] at hn ⊢
      obtain ⟨ht, hnone, hopen⟩ := h.wait hq.1 hd
      obtain ⟨hlast, ⟨ids, hl, hids⟩, hrest⟩ := ih ht hq.2 hn
      refine ⟨hlast, ⟨ids, hl, ?_⟩, List.forall_mem_cons.mpr ⟨hopen, hrest⟩⟩
      rw [hnone, hids, hsame, List.nil_append]
    | true =>
      obtain ⟨rfl, hdue⟩ := eq_of_isOverdue hd
      rw [List.countP_cons_of_pos hd] at hn ⊢
      obtain ⟨ht, hone, hopen⟩ := h.resend hdue (by omega)
      obtain ⟨hlast, ⟨ids, hl, hids⟩, hrest⟩ := ih ht hq.2 (by omega)
      rw [Nat.add_assoc, Nat.add_comm 1] at hlast
      refine ⟨hlast, ⟨s.nextTransaction :: ids, congrArg (· + 1) hl, ?_⟩,
        List.forall_mem_cons.mpr ⟨hopen, hrest⟩⟩
      rw [hone, hids, hsame, List.map_cons, List.singleton_append]

end Trying

/-- What a connection comes to on which the equipment is silent from the beginning. -/
theorem Consistent.silent_connection (h : s.Consistent) (hl : s.connection.link = .connecting)
    (hs : s.stopping = false) {quiet : List Passage}
    (hc : Chain (s.advance now .connected) quiet t)
    (hq : ∀ q ∈ quiet, q.moment.isSilent = true)
    (hn : s.retries + quiet.countP Passage.isOverdue ≤ maxRequestRetries) :
    t.Trying s.connection.startup.request (s.retries + quiet.countP Passage.isOverdue) ∧
      (∃ ids : List UInt16, ids.length = 1 + quiet.countP Passage.isOverdue ∧
        sentRequests (⟨s, now, .connected⟩ :: quiet) =
          ids.map (s.requestFrame s.connection.startup.request)) ∧
      ∀ q ∈ (⟨s, now, .connected⟩ : Passage) :: quiet, ∀ a ∈ q.actions, a.isClose = false := by
  obtain ⟨htrying, hasked, hopen⟩ := trying_connected now h hl hs
  obtain ⟨hlast, ⟨ids, hlength, hids⟩, hquiet⟩ := htrying.chain hc hq hn
  refine ⟨hlast, ⟨s.nextTransaction :: ids, ?_, ?_⟩, List.forall_mem_cons.mpr ⟨hopen, hquiet⟩⟩
  · rw [List.length_cons, hlength, Nat.add_comm]
  · rw [sentRequests_cons, hasked, hids, requestFrame_advance, List.map_cons,
      List.singleton_append]

/-! ## Runs -/

/-- When a connection comes up in a legal run and the equipment is silent from then on, its first
request is sent once and once more for each time that it is overdue, nothing closes the connection
and the timer of the request stays armed, as long as the request has not been overdue more often
than the limit, those times included that were counted when the connection came up. The next time
that it is overdue the connection is closed with a last word, and the next attempt to connect is
set. -/
theorem retries_left_on_connection (machine : String) (model : Model) (catalog : Catalog)
    (run : List Occurrence) (h : (ofCatalog machine model catalog).Legal run) :
    ∀ past p quiet future,
      (ofCatalog machine model catalog).history run = past ++ p :: (quiet ++ future) →
      p.moment = .connected → p.before.stopping = false →
      (∀ q ∈ quiet, q.moment.isSilent = true) →
      p.before.retries ≤ maxRequestRetries ∧
      (p.before.retries + quiet.countP Passage.isOverdue ≤ maxRequestRetries →
        (∃ ids : List UInt16, ids.length = 1 + quiet.countP Passage.isOverdue ∧
          sentRequests (p :: quiet) =
            ids.map (p.before.requestFrame p.before.connection.startup.request)) ∧
        (∀ q ∈ p :: quiet, ∀ a ∈ q.actions, a.isClose = false) ∧
        (p.after.reached quiet).connection.link = .connected ∧
        (p.after.reached quiet).timers.isArmed .commTimeout = true) ∧
      (p.before.retries + quiet.countP Passage.isOverdue = maxRequestRetries →
        ∀ q rest, future = q :: rest → q.isOverdue = true →
          q.actions =
            [.raise .noResponse none, .close true, .raise .connectivity none, .status false] ∧
          q.after.connection.link = .disconnected ∧
          q.after.timers.deadline? .reconnect = some (q.now + reconnectDelay)) := by
  rintro past ⟨s, now, m⟩ quiet future hhist rfl hp hquiet
  have hu : (ofCatalog machine model catalog).Unopened := unopened_ofCatalog machine model catalog
  have hchain := chain_history h hu
  rw [hhist] at hchain
  obtain ⟨hs, hl, hafter⟩ := hchain.middle
  obtain ⟨hconsistent, hle⟩ : s.Consistent ∧ s.retries ≤ maxRequestRetries := by
    rw [show s = _ from hs]
    exact (hchain.split.1.invariant
      (I := fun t => t.Consistent ∧ t.retries ≤ maxRequestRetries)
      (fun t now m ht hm => ⟨ht.1.advance hm, (scores_advance ht.1 now m).retries_le ht.2⟩)
      ⟨hu.consistent, Nat.zero_le _⟩).2
  have hsilent := hafter.split.1
  refine ⟨hle, fun hn => ?_, fun hn => ?_⟩
  · obtain ⟨hlast, hsent, hopen⟩ := hconsistent.silent_connection hl hp hsilent hquiet hn
    exact ⟨hsent, hopen, hlast.link, hlast.isArmed⟩
  · rintro ⟨t, now', m'⟩ rest rfl hover
    obtain ⟨hlast, -, -⟩ :=
      hconsistent.silent_connection hl hp hsilent hquiet (Nat.le_of_eq hn)
    obtain ⟨rfl, hdue⟩ := eq_of_isOverdue hover
    rw [← show t = _ from hafter.middle.1] at hlast
    exact hlast.giveUp hdue (Nat.le_of_eq hn.symm)

/-- The first request of a connection is overdue twice before the connection breaks, and again on
the next one. -/
def impatientTalk : List Occurrence :=
  [(0, .opened), (5, .connected), (2005, .timer), (4005, .timer), (4100, .socketError),
    (4100, .timer), (9100, .timer), (9200, .connected), (11200, .timer), (13200, .timer)]

theorem lt_length_impatientTalk :
    7 < ((ofCatalog "press" {} {}).history impatientTalk).length ∧
      1 < (((ofCatalog "press" {} {}).history impatientTalk).drop 8).length := by
  decide +kernel

theorem retries_left_on_connection_impatientTalk :
    let s := ofCatalog "press" {} {}
    s.Legal impatientTalk ∧ ∃ (past quiet future : List Passage) (p q : Passage),
      s.history impatientTalk = past ++ p :: (quiet ++ q :: future) ∧ p.before.retries = 2 ∧
        (∃ ids : List UInt16, ids.length = 2 ∧
          sentRequests (p :: quiet) =
            ids.map (p.before.requestFrame p.before.connection.startup.request)) ∧
        q.after.connection.link = .disconnected ∧
        q.after.timers.deadline? .reconnect = some (q.now + reconnectDelay) := by
  intro s
  have h : s.Legal impatientTalk := by decide +kernel
  have hsplit := eq_cut_pair lt_length_impatientTalk.1 lt_length_impatientTalk.2
  have hretries : ((s.history impatientTalk).get ⟨7, lt_length_impatientTalk.1⟩).before.retries =
      2 := by decide +kernel
  have hcount : (((s.history impatientTalk).drop 8).take 1).countP Passage.isOverdue = 1 := by
    decide +kernel
  obtain ⟨-, hbefore, hlast⟩ :=
    retries_left_on_connection "press" {} {} impatientTalk h _ _ _ _ hsplit
      (Moment.eq_connected (by decide +kernel)) (by decide +kernel) (by decide +kernel)
  rw [hretries, hcount] at hbefore hlast
  obtain ⟨hsent, -, -⟩ := hbefore (by decide)
  obtain ⟨-, hlink, hreconnect⟩ := hlast rfl _ _ rfl (by decide +kernel)
  exact ⟨h, _, _, _, _, _, hsplit, hretries, hsent, hlink, hreconnect⟩

/-! ## A request that was overdue before -/

/-- Whether in a run of a session a connection on which the equipment is silent is given up only
when its first request has been sent again as often as the limit says. -/
def FullBudget (s : Session) (run : List Occurrence) : Prop :=
  ∀ past p quiet q future, s.history run = past ++ p :: (quiet ++ q :: future) →
    p.moment = .connected → p.before.stopping = false →
      (∀ r ∈ quiet, r.moment.isSilent = true) → q.moment.isSilent = true →
        q.actions.any Action.isClose = true → quiet.countP Passage.isOverdue = maxRequestRetries

/-- The request is sent again only once. -/
theorem not_fullBudget_impatientTalk :
    let s := ofCatalog "press" {} {}
    s.Legal impatientTalk ∧ ¬ s.FullBudget impatientTalk := by
  intro s
  refine ⟨by decide +kernel, fun h => ?_⟩
  have hfull := h _ _ _ _ _ (eq_cut_pair lt_length_impatientTalk.1 lt_length_impatientTalk.2)
    (Moment.eq_connected (by decide +kernel)) (by decide +kernel) (by decide +kernel)
    (by decide +kernel) (by decide +kernel)
  revert hfull
  decide +kernel

end Session

end GemLink
