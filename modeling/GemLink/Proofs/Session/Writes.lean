import Mathlib.Data.List.DropRight
import Mathlib.Data.List.Forall2
import GemLink.Proofs.Session.Frames

/-!
The queue of writes. While a session talks, a moment takes writes from the front of the queue only
to send them, and puts a write at its end only when a call of the host is accepted
(`Course.conserves`). So the accepted writes of a connection are at every point those that were sent
on it, in order and each once, followed by those that wait (`writes_in_order`).

A single call, whatever the session is doing, either changes nothing but what the host is told of
its checks, or sends one frame, or puts one write at the end of the queue
(`write_refused_or_taken`).
-/

namespace GemLink

/-- Whether a frame asks for a write: it is S2F15, and its body is a list of one list of the
identifier of the constant and the value. -/
def PendingWrite.IsSentAs (parties : Parties) (w : PendingWrite) (frame : Bytes) : Prop :=
  ∃ transactionId, frame = parties.request 2 15 transactionId
    (.list [.list [constantIdItem w.constantId, w.value]])

/-- The writes that calls of the host ask for. -/
def Catalog.writes? (c : Catalog) (calls : List (String × Value)) : List (Option PendingWrite) :=
  calls.map fun call => c.write? call.1 call.2

/-- Whether a connection begins at a moment. -/
def Moment.isConnected : Moment → Bool
  | .connected => true
  | _ => false

namespace Session

/-- The passages since the last beginning of a connection. -/
def sinceConnected (ps : List Passage) : List Passage :=
  ps.rtakeWhile fun p => !p.moment.isConnected

theorem sinceConnected_of_connected (ps : List Passage) {p : Passage} (h : p.moment = .connected) :
    sinceConnected (ps ++ [p]) = [] :=
  List.rtakeWhile_concat_neg _ _ _ (by simp [h, Moment.isConnected])

theorem sinceConnected_of_ne (ps : List Passage) {p : Passage} (h : p.moment ≠ .connected) :
    sinceConnected (ps ++ [p]) = sinceConnected ps ++ [p] := by
  refine List.rtakeWhile_concat_pos _ _ _ ?_
  cases hm : p.moment with
  | connected => exact absurd hm h
  | _ => rfl

variable {s t : Session} {now : Nat} {m : Moment} {calls : List (String × Value)}
  {acts : List Action}

/-- While a session talks no write is lost: those that waited and those that the host has called for
are those that are sent and those that wait then. -/
theorem Course.conserves (hc : s.Course now m calls acts t) (h : s.Consistent)
    (hp : s.stopping = false) (ht : t.Talks) :
    ∃ new out : List PendingWrite, s.catalog.writes? calls = new.map some ∧
      s.pendingWrites ++ new = out ++ t.pendingWrites ∧
      framesIn 2 15 acts = out.map fun w => s.writeFrame w s.nextTransaction := by
  have hsent : ∀ (before : List Action) (w : PendingWrite), framesIn 2 15 before = [] →
      framesIn 2 15 (before ++ [.send (s.writeFrame w s.nextTransaction)]) =
        [w].map fun w => s.writeFrame w s.nextTransaction := by
    intro before w hb
    rw [framesIn_append, framesIn_send, hb, carries_writeFrame]
    rfl
  cases hc with
  | unmoved _ _ _ ha hmoves =>
    refine ⟨[], [], rfl, ?_, framesIn_of_neutral rfl ha⟩
    rw [hmoves.pending, List.append_nil, List.nil_append]
  | selected _ _ _ _ _ _ _ _ ha hmoves =>
    refine ⟨[], [], rfl, ?_, framesIn_of_neutral rfl ha⟩
    rw [hmoves.pending, List.append_nil, List.nil_append]
  | asked _ before request _ _ ha _ _ hw =>
    refine ⟨[], [], rfl, ?_, ?_⟩
    · rw [hw, List.append_nil, List.nil_append]
    · have hne : carries 2 15 (s.requestFrame request s.nextTransaction) = false := by
        rw [carries_requestFrame]
        cases request <;> rfl
      rw [framesIn_append, framesIn_send, framesIn_of_allows rfl ha, hne]
      rfl
  | rested _ before _ _ ha hw hmoves =>
    refine ⟨[], [], rfl, ?_, framesIn_of_allows rfl ha⟩
    rw [hw, hmoves.pending, List.append_nil]
  | drained _ before _ _ ha w rest hw hmoves =>
    refine ⟨[], [w], rfl, ?_, hsent before w (framesIn_of_allows rfl ha)⟩
    rw [hw, hmoves.pending, List.append_nil]
    rfl
  | posted name value _ w hw hl hs before _ ha hmoves =>
    have hnone : s.pendingWrites = [] := ((h.settled hp).resting hl hs).1
    refine ⟨[w], [w], ?_, ?_, hsent before w (framesIn_of_neutral rfl ha)⟩
    · simp [Catalog.writes?, hw]
    · rw [hmoves.pending, hnone]
      rfl
  | queued name value _ w hw _ _ _ _ ha hmoves =>
    refine ⟨[w], [], ?_, hmoves.pending.symm, framesIn_of_neutral rfl ha⟩
    simp [Catalog.writes?, hw]
  | lost _ _ _ _ _ _ hl => simp [ht.link] at hl
  | down _ _ _ _ hl => exact absurd ht.link hl
  | halted _ _ hstop _ => simp [ht.staying] at hstop

/-! ## Runs -/

theorem isSentAs_writeFrame (s : Session) (w : PendingWrite) (transactionId : UInt16) :
    w.IsSentAs s.parties (s.writeFrame w transactionId) :=
  ⟨transactionId, rfl⟩

/-- What holds of a session with a past, if it began as `s₀`: the accepted writes of the connection
are those that were sent on it, followed by those that wait. -/
structure Conserved (s₀ : Session) (past : List Passage) (s : Session) : Prop
    extends Descends s₀ s where
  queue : s.Talks → ∃ sent,
    s₀.catalog.writes? (acceptedCalls (sinceConnected past)) = (sent ++ s.pendingWrites).map some ∧
      List.Forall₂ (PendingWrite.IsSentAs s₀.parties) sent (sentFrames 2 15 (sinceConnected past))

variable {s₀ : Session} {past : List Passage}

/-- A connection begins with no writes, and its moments conserve them. -/
theorem Conserved.advance (h : Conserved s₀ past s) (hm : s.Permits m) :
    Conserved s₀ (past ++ [⟨s, now, m⟩]) (s.advance now m) := by
  refine ⟨h.toDescends.advance hm, fun ht => ?_⟩
  obtain ⟨acts, ho, hc⟩ := course_advance h.consistent now hm
  rcases ht.talked_or_begun h.consistent hm with ⟨hs, hne⟩ | ⟨hp, rfl, hl⟩
  · obtain ⟨sent, hcalls, hsent⟩ := h.queue hs
    obtain ⟨new, out, hnew, hqueue, hout⟩ := hc.conserves h.consistent hs.staying ht
    rw [sinceConnected_of_ne past hne]
    refine ⟨sent ++ out, ?_, ?_⟩
    · have hadd : s₀.catalog.writes? (acceptedCalls [⟨s, now, m⟩]) = new.map some := by
        rw [acceptedCalls_singleton, ← h.catalog, hnew]
      rw [acceptedCalls_append, Catalog.writes?, List.map_append]
      calc _ = (sent ++ s.pendingWrites).map some ++ new.map some := congrArg₂ _ hcalls hadd
        _ = (sent ++ (s.pendingWrites ++ new)).map some := by simp
        _ = (sent ++ out ++ (s.advance now m).pendingWrites).map some := by simp [hqueue]
    · rw [sentFrames_append, sentFrames_singleton ho, hout]
      refine List.rel_append hsent ?_
      rw [List.forall₂_map_right_iff, List.forall₂_same]
      intro w _
      rw [← h.parties]
      exact isSentAs_writeFrame s w _
  · have hnone : s.pendingWrites = [] := (h.consistent.settled hp).noWrites (by simp [hl])
    obtain ⟨new, out, hnew, hqueue, -⟩ := hc.conserves h.consistent hp ht
    obtain rfl : new = [] := List.map_eq_nil_iff.mp hnew.symm
    rw [hnone, List.append_nil, eq_comm, List.append_eq_nil_iff] at hqueue
    refine ⟨[], ?_, ?_⟩
    · rw [sinceConnected_of_connected past rfl, hqueue.2]
      rfl
    · rw [sinceConnected_of_connected past rfl]
      exact List.Forall₂.nil

theorem Unopened.conserved (hu : s.Unopened) : Conserved s [] s := by
  refine ⟨hu.descends, fun ht => ?_⟩
  have hl := ht.link
  rw [hu.connection] at hl
  cases hl

/-- At every point of a connection before it is lost or a stop begins, the writes for which calls of
the host were accepted on it are those that were sent on it, in order and each in one frame,
followed by those that wait. -/
theorem writes_in_order (machine : String) (model : Model) (catalog : Catalog)
    (run : List Occurrence) (h : (ofCatalog machine model catalog).Legal run) :
    let s := ofCatalog machine model catalog
    ∀ past future, s.history run = past ++ future → (s.reached past).Talks →
      ∃ sent, catalog.writes? (acceptedCalls (sinceConnected past)) =
          (sent ++ (s.reached past).pendingWrites).map some ∧
        List.Forall₂ (PendingWrite.IsSentAs s.parties) sent
          (sentFrames 2 15 (sinceConnected past)) := by
  intro s past future hp ht
  have hu : s.Unopened := unopened_ofCatalog machine model catalog
  have hchain := chain_history h hu
  rw [hp] at hchain
  exact (hchain.split.1.record (fun _ _ _ _ hI hm => hI.advance hm) hu.conserved).queue ht

/-- A machine with one equipment constant that the host may write. -/
def pressCatalog : Catalog where
  writable := [("setpoint",
    { name := "setpoint", format := .int16, kind := .equipmentConstant, numericId := some 2001,
      access := .write })]

/-- Of three writes the first is not acknowledged in time and the third still waits. -/
def slowWrites : List Occurrence :=
  openTalk ++ [(600, .write "setpoint" (.int 1)), (601, .write "setpoint" (.int 2)),
    (2600, .timer), (2700, .write "setpoint" (.int 3))]

theorem writes_in_order_slowWrites :
    let s := ofCatalog "press" {} pressCatalog
    let past := s.history slowWrites
    s.Legal slowWrites ∧ (s.reached past).Talks ∧
      (acceptedCalls (sinceConnected past)).length = 3 ∧
      (s.reached past).pendingWrites.length = 1 ∧
      ∃ sent, pressCatalog.writes? (acceptedCalls (sinceConnected past)) =
          (sent ++ (s.reached past).pendingWrites).map some ∧
        List.Forall₂ (PendingWrite.IsSentAs s.parties) sent
          (sentFrames 2 15 (sinceConnected past)) := by
  intro s past
  have h : s.Legal slowWrites := by decide +kernel
  have ht : (s.reached past).Talks := ⟨by decide +kernel, by decide +kernel⟩
  exact ⟨h, ht, by decide +kernel, by decide +kernel,
    writes_in_order "press" {} pressCatalog slowWrites h past [] (List.append_nil _).symm ht⟩

/-! ## One call -/

/-- A write that is answered with an error is refused for that reason, and changes nothing but that
the host is told of the checks: those that were passed are cleared, and the one that failed is
raised. After any other the host is told that all checks were passed, and the write is sent in one
frame or waits as one more behind the others. -/
theorem write_refused_or_taken (s : Session) (name : String) (value : Value) (now : Nat) :
    (∀ e, (s.write name value now).2 = .error e → ∃ notices, s.Refuses name value e notices ∧
      (s.write name value now).1 = { s with outbox := s.outbox ++ notices }) ∧
    ((s.write name value now).2 = .ok () → ∃ w, s.catalog.write? name value = some w ∧
      (s.state = .idle ∧ (∃ frame, w.IsSentAs s.parties frame ∧ carries 2 15 frame = true ∧
          transactionId? frame = some s.nextTransaction ∧
          (s.write name value now).1 =
            { s with
              nextTransaction := s.nextTransaction + 1
              state := .awaitingWrite
              timers := s.timers.arm .writeTimeout (now + writeTimeout)
              outbox := s.outbox ++ WriteCheck.cleared name WriteCheck.all ++ [.send frame] }) ∨
        s.state ≠ .idle ∧
          (s.write name value now).1 =
            { s with
              outbox := s.outbox ++ WriteCheck.cleared name WriteCheck.all
              pendingWrites := s.pendingWrites ++ [w] })) := by
  rcases refuses_or_accepts s name value with ⟨e, notices, h⟩ | ⟨hp, ⟨w, hw⟩, hl⟩
  · rw [write_of_refuses now h]
    refine ⟨fun e' he => ?_, fun hok => ?_⟩
    · obtain rfl : e = e' := Except.error.inj he
      exact ⟨notices, h, rfl⟩
    · cases hok
  · rw [write_of_accepts now hp hw hl]
    refine ⟨fun e' he => ?_, fun _ => ⟨w, hw, ?_⟩⟩
    · cases he
    · by_cases hi : s.state = .idle
      · refine .inl ⟨hi, s.writeFrame w s.nextTransaction, isSentAs_writeFrame s w _,
          carries_writeFrame s w _, transactionId?_writeFrame s w _, ?_⟩
        rw [if_pos hi]
        exact sendWrite_eq _ now w
      · refine .inr ⟨hi, ?_⟩
        rw [if_neg hi]

/-- On an open connection a text that is no number is refused, and a number is sent. -/
theorem write_refused_or_taken_openTalk :
    let s := (ofCatalog "press" {} pressCatalog).after openTalk
    ((s.write "setpoint" (.text "wide") 600).2 = .error (.invalidWriteValue "setpoint" .int16) ∧
      ∃ notices,
        s.Refuses "setpoint" (.text "wide") (.invalidWriteValue "setpoint" .int16) notices ∧
          (s.write "setpoint" (.text "wide") 600).1 = { s with outbox := s.outbox ++ notices }) ∧
    (s.write "setpoint" (.int 7) 600).2 = .ok () ∧
      ∃ w, s.catalog.write? "setpoint" (.int 7) = some w ∧
        (∃ frame, w.IsSentAs s.parties frame ∧ carries 2 15 frame = true ∧
          transactionId? frame = some s.nextTransaction ∧
          (s.write "setpoint" (.int 7) 600).1 =
            { s with
              nextTransaction := s.nextTransaction + 1
              state := .awaitingWrite
              timers := s.timers.arm .writeTimeout (600 + writeTimeout)
              outbox :=
                s.outbox ++ WriteCheck.cleared "setpoint" WriteCheck.all ++ [.send frame] }) := by
  intro s
  have hrefused : (s.write "setpoint" (.text "wide") 600).2 =
      .error (.invalidWriteValue "setpoint" .int16) := by decide +kernel
  have htaken : (s.write "setpoint" (.int 7) 600).2 = .ok () := by decide +kernel
  obtain ⟨w, hw, ⟨-, hsent⟩ | ⟨hbusy, -⟩⟩ :=
    (write_refused_or_taken s "setpoint" (.int 7) 600).2 htaken
  · exact ⟨⟨hrefused, (write_refused_or_taken s "setpoint" (.text "wide") 600).1 _ hrefused⟩,
      htaken, w, hw, hsent⟩
  · exact absurd (by decide +kernel) hbusy

end Session

end GemLink
