import GemLink.Proofs.Session.Course

/-!
The frames that a session sends, told apart by stream and function. A request is sent as a frame of
its own stream and function (`carries_requestFrame`), a write as S2F15 (`carries_writeFrame`), and
what is neutral sends no frame with an odd function. So the courses of the moments say which frames
of one stream and function a session sends, which of them it has sent at passages (`sentFrames`),
and which calls of the host it has accepted meanwhile (`acceptedCalls`).
-/

namespace GemLink

/-- Whether a frame carries a stream and a function. -/
def carries (stream function : UInt8) (frame : Bytes) : Bool :=
  (Header.read? frame).any fun h => h.carries stream function

/-- The transaction of a frame. -/
def transactionId? (frame : Bytes) : Option UInt16 :=
  (Header.read? frame).map fun h => h.system.transactionId

variable {stream function : UInt8}

theorem isPrimary_of_carries {frame : Bytes} (h : carries stream function frame = true)
    (hf : function.toNat % 2 = 1) : isPrimary frame = true := by
  obtain ⟨header, hr, hc⟩ := (Option.any_eq_true _ _).mp h
  unfold isPrimary
  rw [hr, Option.any_some]
  simp only [Header.carries, Bool.and_eq_true, beq_iff_eq] at hc ⊢
  exact ⟨hc.1.1, by rw [hc.2, hf]⟩

namespace Parties

variable (p : Parties)

theorem carries_request {stream' function' : UInt8} (hs : stream'.toNat < 128)
    (transactionId : UInt16) (body : Item) :
    carries stream function (p.request stream' function' transactionId body) =
      (stream' == stream && function' == function) := by
  unfold carries request
  rw [Header.read?_message _ _ hs]
  simp [Header.carries]

theorem carries_control (session : SessionType) (transactionId : UInt16) :
    carries stream function (p.control session transactionId) =
      (session == SessionType.data && (0 == stream) && (0 == function)) := by
  unfold carries control
  rw [Header.read?_message _ _ (show (0 : UInt8).toNat < 128 by decide)]
  rfl

theorem transactionId?_request (hs : stream.toNat < 128) (transactionId : UInt16) (body : Item) :
    transactionId? (p.request stream function transactionId body) = some transactionId := by
  unfold transactionId? request
  rw [Header.read?_message _ _ hs]
  rfl

theorem transactionId?_control (session : SessionType) (transactionId : UInt16) :
    transactionId? (p.control session transactionId) = some transactionId := by
  unfold transactionId? control
  rw [Header.read?_message _ _ (show (0 : UInt8).toNat < 128 by decide)]
  rfl

end Parties

namespace Session

/-! ## Requests and writes -/

/-- A request is sent with its own stream and function. -/
theorem carries_requestFrame (s : Session) (request : Request) (transactionId : UInt16) :
    carries stream function (s.requestFrame request transactionId) =
      (request.streamFunction? == some (stream, function)) := by
  have hq : ∀ (stream' function' : UInt8) (body : Item), stream'.toNat < 128 →
      carries stream function (s.parties.request stream' function' transactionId body) =
        (some (stream', function') == some (stream, function)) := by
    intro stream' function' body hs
    rw [s.parties.carries_request hs]
    rfl
  cases request with
  | select =>
    unfold requestFrame
    rw [s.parties.carries_control]
    rfl
  | establish => exact hq 1 13 _ (by decide)
  | enableAlarms => exact hq 5 3 _ (by decide)
  | deleteReports => exact hq 2 33 _ (by decide)
  | defineReports => exact hq 2 33 _ (by decide)
  | linkReports => exact hq 2 35 _ (by decide)
  | enableEvents => exact hq 2 37 _ (by decide)
  | statusVariables => exact hq 1 3 _ (by decide)
  | equipmentConstants => exact hq 2 13 _ (by decide)

/-- A write is sent as S2F15. -/
theorem carries_writeFrame (s : Session) (w : PendingWrite) (transactionId : UInt16) :
    carries stream function (s.writeFrame w transactionId) = (2 == stream && 15 == function) :=
  s.parties.carries_request (by decide) transactionId _

theorem transactionId?_requestFrame (s : Session) (request : Request) (transactionId : UInt16) :
    transactionId? (s.requestFrame request transactionId) = some transactionId := by
  cases request with
  | select => exact s.parties.transactionId?_control _ _
  | _ => exact s.parties.transactionId?_request (by decide) _ _

theorem transactionId?_writeFrame (s : Session) (w : PendingWrite) (transactionId : UInt16) :
    transactionId? (s.writeFrame w transactionId) = some transactionId :=
  s.parties.transactionId?_request (by decide) _ _

end Session

/-! ## What is sent -/

/-- The frame that an action sends, if it carries the stream and function. -/
def Action.sent? (stream function : UInt8) : Action → Option Bytes
  | .send frame => if carries stream function frame then some frame else none
  | _ => none

/-- The frames of a stream and function that actions send, in order. -/
def framesIn (stream function : UInt8) (acts : List Action) : List Bytes :=
  acts.filterMap (Action.sent? stream function)

@[simp] theorem framesIn_nil : framesIn stream function [] = [] :=
  rfl

@[simp] theorem framesIn_append (acts acts' : List Action) :
    framesIn stream function (acts ++ acts') =
      framesIn stream function acts ++ framesIn stream function acts' :=
  List.filterMap_append

@[simp] theorem framesIn_send (frame : Bytes) :
    framesIn stream function [.send frame] =
      if carries stream function frame then [frame] else [] := by
  unfold framesIn
  by_cases h : carries stream function frame = true
  · simp [Action.sent?, h]
  · simp [Action.sent?, h]

/-- What is no primary message has no odd function. -/
theorem framesIn_eq_nil (hf : function.toNat % 2 = 1) {acts : List Action}
    (h : ∀ a ∈ acts, a.isPrimary = false) : framesIn stream function acts = [] := by
  unfold framesIn
  rw [List.filterMap_eq_nil_iff]
  intro a ha
  cases a with
  | send frame =>
    have hp : isPrimary frame = false := h _ ha
    have hc : carries stream function frame ≠ true := fun hc => by
      rw [isPrimary_of_carries hc hf] at hp
      cases hp
    simp [Action.sent?, hc]
  | _ => rfl

namespace Session

variable {s t : Session} {now : Nat} {m : Moment} {acts : List Action}

theorem Allows.isPrimary {a : Action} (h : s.Allows m a) : a.isPrimary = false := by
  rcases h with hq | ⟨_, _, _, _, _, _, rfl⟩
  · exact Action.isPrimary_of_isQuiet hq.isQuiet
  · rfl

theorem framesIn_of_allows (hf : function.toNat % 2 = 1) (h : ∀ a ∈ acts, s.Allows m a) :
    framesIn stream function acts = [] :=
  framesIn_eq_nil hf fun a ha => (h a ha).isPrimary

theorem framesIn_of_neutral (hf : function.toNat % 2 = 1) (h : ∀ a ∈ acts, s.Neutral a) :
    framesIn stream function acts = [] :=
  framesIn_eq_nil hf fun a ha => Action.isPrimary_of_isQuiet (h a ha).isQuiet

/-- The frames of a stream and function that are sent at passages, in order. -/
def sentFrames (stream function : UInt8) (ps : List Passage) : List Bytes :=
  ps.flatMap fun p => framesIn stream function p.actions

/-- The writes of the host that are accepted at passages, in order. -/
def acceptedCalls (ps : List Passage) : List (String × Value) :=
  ps.flatMap fun p => p.before.accepted p.now p.moment

@[simp] theorem sentFrames_append (ps qs : List Passage) :
    sentFrames stream function (ps ++ qs) =
      sentFrames stream function ps ++ sentFrames stream function qs :=
  List.flatMap_append

@[simp] theorem acceptedCalls_append (ps qs : List Passage) :
    acceptedCalls (ps ++ qs) = acceptedCalls ps ++ acceptedCalls qs :=
  List.flatMap_append

theorem sentFrames_singleton (h : (s.advance now m).outbox = s.outbox ++ acts) :
    sentFrames stream function [⟨s, now, m⟩] = framesIn stream function acts := by
  rw [← actions_advance h]
  exact List.flatMap_singleton _ _

theorem acceptedCalls_singleton (s : Session) (now : Nat) (m : Moment) :
    acceptedCalls [⟨s, now, m⟩] = s.accepted now m :=
  List.flatMap_singleton _ _

end Session

end GemLink
