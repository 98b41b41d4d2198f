import GemLink.Proofs.Session.WellFormed
import GemLink.Proofs.Session.Writes

/-!
What becomes of a write that was accepted. It waits for its turn, and then for its acknowledgement,
until it is acknowledged or the host hears that it has failed; only the loss of the connection and a
new beginning of the communication come between (`Fate`). No moment but a stop leads out of these
cases (`Fate.advance`), so that a write is accounted for at every later point of a run without a
stop (`write_accounted_for`). A lost connection drops its writes with no word but that it is lost
(`not_reportsWrites_brokenTalk`).
-/

namespace GemLink

namespace Session

/-- A session waits for the acknowledgement of the write `w` that was accepted at `q`: it is the
last one that was sent, and all those that were accepted later still wait. -/
structure Awaits (s₀ : Session) (w : PendingWrite) (q : Passage) (later : List Passage)
    (t : Session) : Prop where
  state : t.state = .awaitingWrite
  armed : t.timers.isArmed .writeTimeout = true
  behind : s₀.catalog.writes? (acceptedCalls later) = t.pendingWrites.map some
  frame : ∃ frame, (sentFrames 2 15 (q :: later)).getLast? = some frame ∧
    w.IsSentAs s₀.parties frame

/-- How the wait for an acknowledgement ends on a connection. -/
inductive EndsWait (p : Passage) : Prop
  /-- S2F16 accepts the write. -/
  | acknowledged (frame : Bytes) (m : Inbound) (hp : p.moment = .frame frame)
      (hm : Inbound.read? frame = some m) (hc : accepts m 2 16 = true)
  /-- The host hears that the write has failed. -/
  | failed (hp : .raise .writeFailed none ∈ p.actions)
  /-- The communication begins anew. -/
  | restarted (hp : p.moment = .expiry .restartHandshake)
      (hd : p.before.timers.isDue p.now .restartHandshake = true)

/-- What has become of the write `w`, accepted at `q`, when later passages have led to `t`. -/
inductive Fate (s₀ : Session) (w : PendingWrite) (q : Passage) (later : List Passage)
    (t : Session) : Prop
  /-- It waits for its turn, and behind it wait those that were accepted later. -/
  | waits (ahead behind : List PendingWrite) (hw : t.pendingWrites = ahead ++ w :: behind)
      (hb : s₀.catalog.writes? (acceptedCalls later) = behind.map some)
  /-- Its acknowledgement is awaited. -/
  | awaited (h : Awaits s₀ w q later t)
  /-- The wait for its acknowledgement has ended. -/
  | ended (before after : List Passage) (p : Passage) (hl : later = before ++ p :: after)
      (h : Awaits s₀ w q before p.before) (he : EndsWait p)
  /-- The connection was lost, and the host heard of that. -/
  | lost (p : Passage) (hp : p ∈ later) (ha : .raise .connectivity none ∈ p.actions)
      (hl : p.after.connection.link = .disconnected)

variable {s₀ s t : Session} {w : PendingWrite} {q : Passage} {later ps : List Passage}
  {now : Nat} {m : Moment}

theorem sentFrames_snoc {acts : List Action} {stream function : UInt8}
    (h : (t.advance now m).outbox = t.outbox ++ acts) :
    sentFrames stream function (q :: (later ++ [⟨t, now, m⟩])) =
      sentFrames stream function (q :: later) ++ framesIn stream function acts := by
  rw [← List.cons_append, sentFrames_append, sentFrames_singleton h]

/-- Writes that are accepted come behind those that wait. -/
theorem writes?_snoc {calls : List (String × Value)} {behind : List PendingWrite}
    (hb : s₀.catalog.writes? (acceptedCalls later) = behind.map some)
    (hc : t.accepted now m = calls) (new : List PendingWrite)
    (hn : s₀.catalog.writes? calls = new.map some) :
    s₀.catalog.writes? (acceptedCalls (later ++ [⟨t, now, m⟩])) = (behind ++ new).map some := by
  rw [acceptedCalls_append, acceptedCalls_singleton, hc, List.map_append, ← hb, ← hn]
  exact List.map_append

theorem writes?_snoc_none {behind : List PendingWrite}
    (hb : s₀.catalog.writes? (acceptedCalls later) = behind.map some)
    (hc : t.accepted now m = []) :
    s₀.catalog.writes? (acceptedCalls (later ++ [⟨t, now, m⟩])) = behind.map some := by
  rw [writes?_snoc hb hc [] rfl, List.append_nil]

/-- A session that waits for the acknowledgement of a write has a timer for it. -/
theorem Consistent.awaits (h : s.Consistent) (hp : s.stopping = false)
    (hs : s.state = .awaitingWrite)
    (hb : s₀.catalog.writes? (acceptedCalls later) = s.pendingWrites.map some) {frame : Bytes}
    (hf : (sentFrames 2 15 (q :: later)).getLast? = some frame) (hw : w.IsSentAs s₀.parties frame) :
    Awaits s₀ w q later s :=
  ⟨hs, (h.settled hp).writing hs, hb, frame, hf, hw⟩

/-- While an acknowledgement is awaited no request is asked but to begin the communication anew. -/
theorem Asks.endsWait {request : Request} (why : s.Asks now m request) (h : s.Consistent)
    (hs : s.state = .awaitingWrite) : EndsWait ⟨s, now, m⟩ := by
  cases why with
  | begun hl => simp [(h.live (by simp [hs])).link] at hl
  | restarted hd => exact .restarted rfl hd
  | overdue _ hr _ => simp [hs] at hr
  | unapproached hr _ => simp [hs] at hr
  | advanced _ _ _ _ _ hr _ _ => simp [hs] at hr
  | due _ _ hr _ _ => simp [hs] at hr
  | followed _ _ _ hr _ => simp [hs] at hr

/-- Nothing but its acknowledgement or its failure frees a session that waits for the one. -/
theorem Frees.endsWait {before : List Action} (why : s.Frees now m before)
    (hs : s.state = .awaitingWrite)
    (ha : ∀ a ∈ before, a ∈ Passage.actions ⟨s, now, m⟩) : EndsWait ⟨s, now, m⟩ := by
  cases why with
  | completed _ _ _ _ hr _ _ => simp [hs] at hr
  | polled _ _ _ _ hr _ _ => simp [hs] at hr
  | written frame inbound hm _ hc => exact .acknowledged frame inbound rfl hm hc
  | overdue _ _ => exact .failed (ha _ (List.mem_singleton_self _))
  | unpolled hr _ => simp [hs] at hr

section

variable (h : Descends s₀ t) (hp : t.stopping = false) (hm : t.Permits m) (hne : m ≠ .stop)
include h hp hm hne

/-- A write that has just been accepted waits for its turn or for its acknowledgement. -/
theorem fate_accepted {call : String × Value} (hcall : call ∈ t.accepted now m) :
    ∃ w, s₀.catalog.write? call.1 call.2 = some w ∧
      Fate s₀ w ⟨t, now, m⟩ [] (t.advance now m) := by
  have hnext : (t.advance now m).Consistent := h.consistent.advance hm
  have hpnext : (t.advance now m).stopping = false := stopping_advance hp hne
  obtain ⟨acts, ho, hc⟩ := course_advance h.consistent now hm
  generalize t.accepted now m = calls at hc hcall
  rw [← h.catalog]
  cases hc with
  | posted name value _ w hw hl hs before _ ha hmoves =>
    obtain rfl := List.mem_singleton.mp hcall
    have hsent : sentFrames 2 15 [⟨t, now, m⟩] = [t.writeFrame w t.nextTransaction] := by
      rw [sentFrames_singleton ho, framesIn_append, framesIn_of_neutral rfl ha, framesIn_send,
        carries_writeFrame]
      rfl
    refine ⟨w, hw, .awaited (hnext.awaits hpnext hmoves.state ?_ ?_
      (h.parties ▸ isSentAs_writeFrame t w t.nextTransaction))⟩
    · rw [hmoves.pending, ((h.consistent.settled hp).resting hl hs).1]
      rfl
    · rw [hsent]
      rfl
  | queued name value _ w hw _ _ _ _ _ hmoves _ =>
    obtain rfl := List.mem_singleton.mp hcall
    exact ⟨w, hw, .waits t.pendingWrites [] hmoves.pending rfl⟩
  | _ => cases hcall

/-- A write that waits for its turn moves up until it is sent, or is dropped with the connection. -/
theorem fate_of_waits {ahead behind : List PendingWrite}
    (hw : t.pendingWrites = ahead ++ w :: behind)
    (hb : s₀.catalog.writes? (acceptedCalls later) = behind.map some) :
    Fate s₀ w q (later ++ [⟨t, now, m⟩]) (t.advance now m) := by
  have hl : t.connection.link = .connected := Decidable.byContradiction fun hd => by
    simp [(h.consistent.settled hp).noWrites hd] at hw
  have hnext : (t.advance now m).Consistent := h.consistent.advance hm
  have hpnext : (t.advance now m).stopping = false := stopping_advance hp hne
  obtain ⟨acts, ho, hc⟩ := course_advance h.consistent now hm
  generalize hcalls : t.accepted now m = calls at hc
  cases hc with
  | unmoved _ _ _ _ hmoves _ =>
    exact .waits ahead behind (hmoves.pending.trans hw) (writes?_snoc_none hb hcalls)
  | selected _ _ _ _ _ _ _ _ _ hmoves =>
    exact .waits ahead behind (hmoves.pending.trans hw) (writes?_snoc_none hb hcalls)
  | asked _ _ _ _ _ _ _ _ hpend =>
    exact .waits ahead behind (hpend.trans hw) (writes?_snoc_none hb hcalls)
  | rested _ _ _ _ _ hnone => simp [hnone] at hw
  | drained _ before _ _ ha first rest hfirst hmoves =>
    rw [hfirst] at hw
    cases ahead with
    | cons _ ahead =>
      obtain ⟨rfl, rfl⟩ := List.cons.inj hw
      exact .waits ahead behind hmoves.pending (writes?_snoc_none hb hcalls)
    | nil =>
      obtain ⟨rfl, rfl⟩ := List.cons.inj hw
      have hsent : framesIn 2 15 (before ++ [.send (t.writeFrame first t.nextTransaction)]) =
          [t.writeFrame first t.nextTransaction] := by
        rw [framesIn_append, framesIn_of_allows rfl ha, framesIn_send, carries_writeFrame]
        rfl
      refine .awaited (hnext.awaits hpnext hmoves.state ?_ ?_
        (h.parties ▸ isSentAs_writeFrame t first t.nextTransaction))
      · rw [hmoves.pending]
        exact writes?_snoc_none hb hcalls
      · rw [sentFrames_snoc ho, hsent]
        exact List.getLast?_concat
  | posted _ _ _ _ _ _ hs => simp [((h.consistent.settled hp).resting hl hs).1] at hw
  | queued name value _ new hnew _ _ _ _ _ hmoves _ =>
    refine .waits ahead (behind ++ [new]) ?_ (writes?_snoc hb hcalls [new] ?_)
    · rw [hmoves.pending, hw]
      simp
    · rw [← h.catalog]
      simp [Catalog.writes?, hnew]
  | lost _ _ before _ graceful _ hd =>
    refine .lost ⟨t, now, m⟩ (by simp) ?_ hd
    rw [actions_advance ho]
    simp
  | down why _ _ _ _ =>
    rcases why with hs | rfl | hd
    · simp [hp] at hs
    · exact absurd rfl hne
    · exact absurd hl hd
  | halted hs _ _ _ => exact absurd hs hne

/-- The wait for an acknowledgement goes on until it ends or the connection is lost. -/
theorem fate_of_awaits (hw : Awaits s₀ w q later t) :
    Fate s₀ w q (later ++ [⟨t, now, m⟩]) (t.advance now m) := by
  have hl : t.connection.link = .connected := (h.consistent.live (by simp [hw.state])).link
  have hnext : (t.advance now m).Consistent := h.consistent.advance hm
  have hpnext : (t.advance now m).stopping = false := stopping_advance hp hne
  obtain ⟨frame, hframe, hsent⟩ := hw.frame
  have hend : EndsWait ⟨t, now, m⟩ → Fate s₀ w q (later ++ [⟨t, now, m⟩]) (t.advance now m) :=
    fun he => .ended later [] ⟨t, now, m⟩ rfl hw he
  obtain ⟨acts, ho, hc⟩ := course_advance h.consistent now hm
  generalize hcalls : t.accepted now m = calls at hc
  cases hc with
  | unmoved _ _ _ ha hmoves _ =>
    refine .awaited (hnext.awaits hpnext (hmoves.state.trans hw.state) ?_ ?_ hsent)
    · rw [hmoves.pending]
      exact writes?_snoc_none hw.behind hcalls
    · rw [sentFrames_snoc ho, framesIn_of_neutral rfl ha, List.append_nil, hframe]
  | selected _ _ _ _ _ hs => simp [hw.state] at hs
  | asked _ _ _ _ why => exact hend (why.endsWait h.consistent hw.state)
  | rested _ before _ why =>
    refine hend (why.endsWait hw.state fun a ha => ?_)
    rwa [actions_advance ho]
  | drained _ before _ why =>
    refine hend (why.endsWait hw.state fun a ha => ?_)
    rw [actions_advance ho]
    exact List.mem_append_left _ ha
  | posted _ _ _ _ _ _ hs => simp [hw.state] at hs
  | queued name value _ new hnew _ _ _ _ ha hmoves _ =>
    refine .awaited (hnext.awaits hpnext (hmoves.state.trans hw.state) ?_ ?_ hsent)
    · rw [hmoves.pending]
      refine writes?_snoc hw.behind hcalls [new] ?_
      rw [← h.catalog]
      simp [Catalog.writes?, hnew]
    · rw [sentFrames_snoc ho, framesIn_of_neutral rfl ha, List.append_nil, hframe]
  | lost _ _ before _ graceful _ hd =>
    refine .lost ⟨t, now, m⟩ (by simp) ?_ hd
    rw [actions_advance ho]
    simp
  | down why _ _ _ _ =>
    rcases why with hs | rfl | hd
    · simp [hp] at hs
    · exact absurd rfl hne
    · exact absurd hl hd
  | halted hs _ _ _ => exact absurd hs hne

/-- Whatever happens but a stop, a write stays accounted for. -/
theorem Fate.advance (hf : Fate s₀ w q later t) :
    Fate s₀ w q (later ++ [⟨t, now, m⟩]) (t.advance now m) := by
  cases hf with
  | waits ahead behind hw hb => exact fate_of_waits h hp hm hne hw hb
  | awaited hw => exact fate_of_awaits h hp hm hne hw
  | ended before after p hl hw he =>
    exact .ended before (after ++ [⟨t, now, m⟩]) p (by simp [hl]) hw he
  | lost p hmem ha hl => exact .lost p (List.mem_append_left _ hmem) ha hl

end

/-! ## Runs -/

theorem descends_of_chain (hc : Chain s ps t) (h : Descends s₀ s) (hp : s.stopping = false)
    (hn : ∀ p ∈ ps, p.moment ≠ .stop) : Descends s₀ t ∧ t.stopping = false := by
  induction hc with
  | nil => exact ⟨h, hp⟩
  | @cons s _ now m rest hm _ ih =>
    rw [List.forall_mem_cons] at hn
    exact ih (h.advance hm) (stopping_advance hp hn.1) hn.2

theorem Fate.chain (hc : Chain s ps t) (h : Descends s₀ s) (hp : s.stopping = false)
    (hn : ∀ p ∈ ps, p.moment ≠ .stop) (hf : Fate s₀ w q later s) :
    Fate s₀ w q (later ++ ps) t := by
  induction hc generalizing later with
  | nil => rwa [List.append_nil]
  | @cons s _ now m rest hm _ ih =>
    rw [List.forall_mem_cons] at hn
    have hnext := ih (h.advance hm) (stopping_advance hp hn.1) hn.2 (hf.advance h hp hm hn.1)
    rwa [List.append_assoc] at hnext

/-- In a run without a stop an accepted write is at every later point accounted for. -/
theorem write_accounted_for (machine : String) (model : Model) (catalog : Catalog)
    (run : List Occurrence) (h : (ofCatalog machine model catalog).Legal run)
    (hn : ∀ o ∈ run, o.2.isStop = false) :
    let s := ofCatalog machine model catalog
    ∀ past q later future, s.history run = past ++ q :: (later ++ future) →
      ∀ call ∈ q.before.accepted q.now q.moment,
        ∃ w, catalog.write? call.1 call.2 = some w ∧ Fate s w q later (q.after.reached later) := by
  intro s past q later future hp call hcall
  have hu : s.Unopened := unopened_ofCatalog machine model catalog
  have hchain := chain_history h hu
  have hne := history_ne_stop (s := s) hn
  rw [hp] at hchain hne
  rw [List.forall_mem_append, List.forall_mem_cons, List.forall_mem_append] at hne
  obtain ⟨hpast, hq, hlater, -⟩ := hne
  obtain ⟨hbefore, hm, hrest⟩ := hchain.middle
  obtain ⟨hd, hst⟩ := descends_of_chain hchain.split.1 hu.descends rfl hpast
  rw [← hbefore] at hd hst
  obtain ⟨w, hw, hf⟩ := fate_accepted hd hst hm hq hcall
  exact ⟨w, hw, hf.chain hrest.split.1 (hd.advance hm) (stopping_advance hst hq) hlater⟩

theorem write_accounted_for_slowWrites :
    let s := ofCatalog "press" {} pressCatalog
    s.Legal slowWrites ∧ (∀ o ∈ slowWrites, o.2.isStop = false) ∧
      (acceptedCalls (s.history slowWrites)).length = 3 ∧
      ∀ past q later future, s.history slowWrites = past ++ q :: (later ++ future) →
        ∀ call ∈ q.before.accepted q.now q.moment,
          ∃ w, pressCatalog.write? call.1 call.2 = some w ∧
            Fate s w q later (q.after.reached later) := by
  intro s
  have h : s.Legal slowWrites := by decide +kernel
  have hn : ∀ o ∈ slowWrites, o.2.isStop = false := by decide +kernel
  exact ⟨h, hn, by decide +kernel, write_accounted_for "press" {} pressCatalog slowWrites h hn⟩

/-! ## A lost connection -/

/-- Whether S2F16 accepts a write at a passage. -/
def acknowledges (p : Passage) : Bool :=
  match p.moment with
  | .frame frame => (Inbound.read? frame).any fun m => accepts m 2 16
  | _ => false

/-- Whether the host hears at a passage that a write has failed. -/
def reportsFailure (p : Passage) : Bool :=
  p.actions.any fun
    | .raise .writeFailed _ => true
    | _ => false

/-- Whether in a run of a session no accepted write is lost without a word about a write: when one
was accepted, then at every later point some write waits for its turn or for its acknowledgement, or
one was acknowledged or failed since. -/
def ReportsWrites (s : Session) (run : List Occurrence) : Prop :=
  ∀ past q later future, s.history run = past ++ q :: (later ++ future) →
    q.before.accepted q.now q.moment ≠ [] →
      (q.after.reached later).pendingWrites ≠ [] ∨
        ((q.after.reached later).state = .awaitingWrite ∧
          (q.after.reached later).timers.isArmed .writeTimeout = true) ∨
        later.any acknowledges = true ∨ later.any reportsFailure = true

/-- The connection breaks while one write is not acknowledged and another one waits. -/
def brokenTalk : List Occurrence :=
  openTalk ++ [(600, .write "setpoint" (.int 1)), (601, .write "setpoint" (.int 2)),
    (700, .socketError)]

theorem lt_length_brokenTalk :
    12 < ((ofCatalog "press" {} pressCatalog).history brokenTalk).length := by decide +kernel

/-- A connection that breaks takes its writes with it, and the host hears of no write. -/
theorem not_reportsWrites_brokenTalk :
    let s := ofCatalog "press" {} pressCatalog
    s.Legal brokenTalk ∧ (∀ o ∈ brokenTalk, o.2.isStop = false) ∧ ¬ s.ReportsWrites brokenTalk := by
  intro s
  refine ⟨by decide +kernel, by decide +kernel, fun h => ?_⟩
  have hdrop : (s.history brokenTalk).drop 12 =
      (s.history brokenTalk).get ⟨12, lt_length_brokenTalk⟩ :: (s.history brokenTalk).drop 13 :=
    List.drop_eq_getElem_cons lt_length_brokenTalk
  have hsplit : s.history brokenTalk = (s.history brokenTalk).take 12 ++
      (s.history brokenTalk).get ⟨12, lt_length_brokenTalk⟩ ::
        ((s.history brokenTalk).drop 13 ++ []) := by
    rw [List.append_nil, ← hdrop, List.take_append_drop]
  have hwait := h _ _ _ _ hsplit
  revert hwait
  decide +kernel

end Session

end GemLink
