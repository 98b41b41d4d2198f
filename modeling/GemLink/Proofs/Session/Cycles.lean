import GemLink.Proofs.Session.Requests
import GemLink.Proofs.Session.Separation

/-!
One exchange at a time. A moment sends at most one request, and before the next one is sent on a
connection, the wait for the answer to the one before it has ended, or the communication begins anew
after an answer to another poll (`one_at_a_time_or_restarted`). The new beginning is not called off
when the open poll is answered after all, so that it can come in the middle of an exchange that was
opened later (`not_oneAtATime_restartedWrite`).
-/

namespace GemLink

/-- The timer that expires at a moment, if one does. -/
def Moment.expired? : Moment → Option TimerKind
  | .expiry kind => some kind
  | _ => none

namespace Session

variable {s t : Session} {now : Nat} {m : Moment} {p : Passage} {later ps : List Passage}

/-- The exchange that was opened at `p` is over at one of the later passages, before another one was
opened: its wait has ended, or the communication began anew. -/
def IsOver (p : Passage) (later : List Passage) : Prop :=
  ∃ before r rest, later = before ++ r :: rest ∧ sentRequests before = [] ∧
    r.before.state = p.after.state ∧
      (r.before.Ends r.now r.moment ∨ r.before.Restarts r.now r.moment)

/-- What has become of the exchange that was opened at `p` when later passages have led to `t`. -/
inductive Pursued (p : Passage) (later : List Passage) (t : Session) : Prop
  /-- It is open. -/
  | unanswered (hr : sentRequests later = []) (hs : t.state = p.after.state)
  /-- It is over. -/
  | settled (h : IsOver p later)
  /-- There is no connection any more. -/
  | lost (hl : t.connection.link ≠ .connected)

/-- Whether a session waits for an answer. -/
def IsWaiting (s : Session) : Prop :=
  s.state ≠ .idle ∧ s.state ≠ .awaitingEquipment

theorem Asked.isWaiting {frame : Bytes} (h : s.Asked t.state frame) : t.IsWaiting := by
  generalize hs : t.state = state at h
  cases h with
  | request request transactionId => simp [IsWaiting, hs]
  | write w transactionId => simp [IsWaiting, hs]

/-- While the exchange is open, what a moment does decides about it. -/
theorem Exchange.pursued {acts : List Action} (h : t.Exchange now m acts (t.advance now m))
    (ha : Passage.actions ⟨t, now, m⟩ = acts) (hw : p.after.IsWaiting) (hne : m ≠ .connected)
    (hr : sentRequests later = []) (hs : t.state = p.after.state) :
    Pursued p (later ++ [⟨t, now, m⟩]) (t.advance now m) := by
  have hover : t.Ends now m ∨ t.Restarts now m → IsOver p (later ++ [⟨t, now, m⟩]) :=
    fun he => ⟨later, ⟨t, now, m⟩, [], rfl, hr, hs, he⟩
  cases h with
  | kept hnone hstate _ =>
    refine .unanswered ?_ (hstate.trans hs)
    rw [sentRequests_append, hr, sentRequests_singleton, ha, hnone]
    rfl
  | closed why _ _ _ => exact .settled (hover (.inl why))
  | opened why _ _ _ _ _ =>
    cases why with
    | begun hm => exact absurd hm hne
    | free hfree =>
      rw [hs] at hfree
      exact absurd hfree (not_or.mpr hw)
    | ended he => exact .settled (hover (.inl he))
    | restarted he => exact .settled (hover (.inr he))
  | down _ hl => exact .lost hl

/-- Without a new connection nothing is asked on one that is lost. -/
theorem Exchange.lost {acts : List Action} (h : t.Exchange now m acts (t.advance now m))
    (hne : m ≠ .connected) (hl : t.connection.link ≠ .connected) :
    (t.advance now m).connection.link ≠ .connected := by
  cases h with
  | kept _ _ hsame => rwa [hsame]
  | closed _ _ _ hsame => rwa [hsame]
  | opened _ _ _ _ hs _ => exact absurd hs (not_or.mpr ⟨hl, hne⟩)
  | down _ hl => exact hl

theorem Pursued.advance (h : Pursued p later t) (hc : t.Consistent) (hm : t.Permits m)
    (hw : p.after.IsWaiting) (hne : m ≠ .connected) :
    Pursued p (later ++ [⟨t, now, m⟩]) (t.advance now m) := by
  have he := hc.exchange now hm
  cases h with
  | unanswered hr hs => exact he.pursued rfl hw hne hr hs
  | settled h =>
    obtain ⟨before, r, rest, rfl, hnone, hs, hend⟩ := h
    exact .settled ⟨before, r, rest ++ [⟨t, now, m⟩], by simp, hnone, hs, hend⟩
  | lost hl => exact .lost (he.lost hne hl)

theorem Pursued.chain (hc : Chain s ps t) (h : Pursued p later s) (hs : s.Consistent)
    (hw : p.after.IsWaiting) (hne : ∀ r ∈ ps, r.moment ≠ .connected) :
    Pursued p (later ++ ps) t := by
  induction hc generalizing later with
  | nil => rwa [List.append_nil]
  | @cons s _ now m rest hm _ ih =>
    rw [List.forall_mem_cons] at hne
    have hnext := ih (h.advance hs hm hw hne.1) (hs.advance hm) hne.2
    rwa [List.append_assoc] at hnext

/-- A request is sent on a connection, and its answer is waited for. -/
theorem Consistent.asks (h : s.Consistent) (hm : s.Permits m)
    (hr : sentRequests [⟨s, now, m⟩] ≠ []) :
    (s.advance now m).IsWaiting ∧ (s.advance now m).connection.link = .connected := by
  rw [sentRequests_singleton] at hr
  cases h.exchange now hm with
  | kept hnone => exact absurd hnone hr
  | closed _ hnone => exact absurd hnone hr
  | opened _ frame _ ha _ hl => exact ⟨ha.isWaiting, hl⟩
  | down hnone => exact absurd hnone hr

theorem Consistent.length_sentRequests (h : s.Consistent) (now : Nat) (hm : s.Permits m) :
    (sentRequests [⟨s, now, m⟩]).length ≤ 1 := by
  rw [sentRequests_singleton]
  cases h.exchange now hm with
  | kept hr => simp [hr]
  | closed _ hr => simp [hr]
  | opened _ frame hr => simp [hr]
  | down hr => simp [hr]

/-- When another request is sent on the same connection, the exchange is over. -/
theorem Consistent.isOver {q : Passage} {between : List Passage} (h : p.before.Consistent)
    (hm : p.before.Permits p.moment) (hc : Chain p.after (between ++ [q]) t)
    (hp : sentRequests [p] ≠ []) (hq : sentRequests [q] ≠ [])
    (hne : ∀ r ∈ between ++ [q], r.moment ≠ .connected) : IsOver p (between ++ [q]) := by
  have hnext : p.after.Consistent := h.advance hm
  have hkept := (hc.invariant (fun _ _ _ ht hm => ht.advance hm) hnext).1
  obtain ⟨hcq, hmq, -⟩ := hkept q (by simp)
  have hstart : Pursued p [] p.after := .unanswered rfl rfl
  cases Pursued.chain hc hstart hnext (h.asks hm hp).1 hne with
  | unanswered hr =>
    rw [List.nil_append, sentRequests_append, List.append_eq_nil_iff] at hr
    exact absurd hr.2 hq
  | settled h => exact h
  | lost hl =>
    have hlast : t = q.after := by rw [← hc.reached, reached_append, reached_cons, reached_nil]
    rw [hlast] at hl
    exact absurd (hcq.asks hmq hq).2 hl

/-- The communication begins anew only after an answer to another poll. -/
theorem Doubted.mismatchSince {past : List Passage} (h : Doubted past s)
    (hr : s.Restarts now m) : MismatchSince past := by
  have ha : s.isDoubted = true := by simp [isDoubted, Timers.isArmed_of_isDue hr.2]
  exact (h.doubted ha).2

/-! ## Runs -/

/-- In a legal run a moment sends at most one request. When one is sent at `p` and another one later
on the same connection at `q`, then the wait for the answer to the first has ended before the next
was sent, by its answer or by its time running out, or the communication began anew while it was
open, after an answer on the connection to another poll than the one that was open then. -/
theorem one_at_a_time_or_restarted (machine : String) (model : Model) (catalog : Catalog)
    (run : List Occurrence) (h : (ofCatalog machine model catalog).Legal run) :
    let s := ofCatalog machine model catalog
    (∀ p ∈ s.history run, (sentRequests [p]).length ≤ 1) ∧
      ∀ past p between q future, s.history run = past ++ p :: (between ++ q :: future) →
        sentRequests [p] ≠ [] → sentRequests [q] ≠ [] →
          (∀ r ∈ between ++ [q], r.moment ≠ .connected) →
            ∃ before r rest, between ++ [q] = before ++ r :: rest ∧ sentRequests before = [] ∧
              r.before.state = p.after.state ∧
                (r.before.Ends r.now r.moment ∨
                  r.before.Restarts r.now r.moment ∧ MismatchSince (past ++ p :: before)) := by
  intro s
  have hu : s.Unopened := unopened_ofCatalog machine model catalog
  refine ⟨?_, ?_⟩
  · intro p hp
    obtain ⟨hc, hm, -⟩ := consistent_history h hu p hp
    exact hc.length_sentRequests p.now hm
  · intro past p between q future hhist hp hq hne
    have hchain := chain_history h hu
    rw [hhist] at hchain
    obtain ⟨hc, hm, -⟩ := consistent_history h hu p (hhist ▸ by simp)
    obtain ⟨-, -, hlater⟩ := hchain.middle
    rw [List.append_cons] at hlater
    obtain ⟨before, r, rest, hsplit, hnone, hstate, hend⟩ := hc.isOver hm hlater.split.1 hp hq hne
    refine ⟨before, r, rest, hsplit, hnone, hstate, hend.imp_right fun hrestart => ?_⟩
    -- what has led to the new beginning holds of the whole past of `r`
    have hpast : past ++ p :: (between ++ q :: future) =
        (past ++ p :: before) ++ r :: (rest ++ future) := by
      rw [List.append_cons between, hsplit]
      simp
    rw [hpast] at hchain
    have hdoubt := hchain.split.1.doubted hu
    rw [← hchain.middle.1] at hdoubt
    exact ⟨hrestart, hdoubt.mismatchSince hrestart⟩

/-- A host that polls a gauge and writes a setpoint. -/
def controlCatalog : Catalog :=
  { status := [gauge], writable := pressCatalog.writable }

/-- After an answer that was overtaken has come and the poll is over, a write is sent just before
the communication begins anew. -/
def restartedWrite : List Occurrence :=
  crossedTalk ++ [(11000, .write "setpoint" (.int 1)), (11600, .timer)]

theorem one_at_a_time_or_restarted_restartedWrite :
    let s := ofCatalog "press" {} controlCatalog
    s.Legal restartedWrite ∧ (s.history restartedWrite).countP (sentRequests [·] ≠ []) = 7 ∧
      (∀ p ∈ s.history restartedWrite, (sentRequests [p]).length ≤ 1) ∧
      ∀ past p between q future, s.history restartedWrite = past ++ p :: (between ++ q :: future) →
        sentRequests [p] ≠ [] → sentRequests [q] ≠ [] →
          (∀ r ∈ between ++ [q], r.moment ≠ .connected) →
            ∃ before r rest, between ++ [q] = before ++ r :: rest ∧ sentRequests before = [] ∧
              r.before.state = p.after.state ∧
                (r.before.Ends r.now r.moment ∨
                  r.before.Restarts r.now r.moment ∧ MismatchSince (past ++ p :: before)) := by
  intro s
  have h : s.Legal restartedWrite := by decide +kernel
  exact ⟨h, by decide +kernel,
    one_at_a_time_or_restarted "press" {} controlCatalog restartedWrite h⟩

/-! ## A new beginning in the middle of an exchange -/

/-- Whether in a run of a session, before the next request is sent on a connection, an answer to the
one before it has come, if only one that belongs to another transaction, or its time has run out. -/
def OneAtATime (s : Session) (run : List Occurrence) : Prop :=
  ∀ past p between q future, s.history run = past ++ p :: (between ++ q :: future) →
    sentRequests [p] ≠ [] → sentRequests [q] ≠ [] →
      (∀ r ∈ between ++ [q], r.moment ≠ .connected) →
        ∃ before r rest, between ++ [q] = before ++ r :: rest ∧ sentRequests before = [] ∧
          r.before.state = p.after.state ∧
            (r.before.Ends r.now r.moment ∨ ∃ request, r.before.Mismatches r.moment request)

/-- No answer and no waiting time ends a wait when the communication begins anew. -/
theorem not_ends_of_expired? (h : m.expired? = some .restartHandshake) :
    ¬ (s.Ends now m ∨ ∃ request, s.Mismatches m request) := by
  rintro (he | ⟨request, _, _, rfl, -⟩)
  · cases he <;> simp [Moment.expired?] at h
  · simp [Moment.expired?] at h

theorem lt_length_restartedWrite :
    22 < ((ofCatalog "press" {} controlCatalog).history restartedWrite).length := by
  decide +kernel

/-- A write is open when the communication begins anew. -/
theorem not_oneAtATime_restartedWrite :
    let s := ofCatalog "press" {} controlCatalog
    s.Legal restartedWrite ∧ ¬ s.OneAtATime restartedWrite := by
  intro s
  refine ⟨by decide +kernel, fun h => ?_⟩
  have hdrop : (s.history restartedWrite).drop 22 =
      (s.history restartedWrite).get ⟨22, lt_length_restartedWrite⟩ ::
        (s.history restartedWrite).drop 23 :=
    List.drop_eq_getElem_cons lt_length_restartedWrite
  have hsplit : s.history restartedWrite = (s.history restartedWrite).take 21 ++
      (s.history restartedWrite).get ⟨21, Nat.lt_of_succ_lt lt_length_restartedWrite⟩ :: ([] ++
        (s.history restartedWrite).get ⟨22, lt_length_restartedWrite⟩ ::
          (s.history restartedWrite).drop 23) := by
    rw [List.nil_append, ← hdrop]
    exact eq_cut (Nat.lt_of_succ_lt lt_length_restartedWrite)
  have hrestart : ((s.history restartedWrite).get ⟨22, lt_length_restartedWrite⟩).moment.expired? =
      some .restartHandshake := by decide +kernel
  obtain ⟨before, r, rest, hone, -, -, hend⟩ :=
    h _ _ _ _ _ hsplit (by decide +kernel) (by decide +kernel) (by
      intro r hr
      obtain rfl : r = _ := List.mem_singleton.mp hr
      intro hc
      rw [hc] at hrestart
      cases hrestart)
  -- nothing lies between the two requests, so that the wait would have to end at the second
  obtain rfl : r = (s.history restartedWrite).get ⟨22, lt_length_restartedWrite⟩ := by
    cases before with
    | nil => exact (List.cons.inj hone).1.symm
    | cons _ _ => simp at hone
  exact not_ends_of_expired? hrestart hend

end Session

end GemLink
