import GemLink.Session.Exchange
import GemLink.Session.Reports

/-!
Answers: what a session does with the message that it waits for. A message that it does not wait for
is left to others, which is what `none` says.
-/

namespace GemLink.Session

/-- Whether a message accepts, with an acknowledge code as its body. -/
def accepts (m : Inbound) (stream function : UInt8) : Bool :=
  m.header.carries stream function && m.acknowledgeCode? == some Body.accepted

/-- Goes on after an accepting answer with the next request, or with the end of the handshake. -/
def acknowledged? (s : Session) (m : Inbound) (function : UInt8) (next : Option Request)
    (now : Nat) : Option Session :=
  if accepts m 2 function then
    match next with
    | some request => some (s.replied.sendRequest request now)
    | none => some (s.replied.completeHandshake now)
  else none

/-- Hands the answer to a poll to the host. An answer that is no list fails for every variable. -/
def publishPoll (s : Session) (m : Inbound) (vs : List Variable) (bad : AlertKey) : Session :=
  match (Cursor.ofBytes m.body).listHeader? with
  | some (count, c) => (s.publishRowAndClear count c vs).clear bad
  | none => (vs.foldl dataFailure s).raise bad none

/-- Handles the answer to a poll: a failed transaction ends it, an answer to another question leaves
it open and sets the end of the communication, and any other answer brings values. -/
def polled? (s : Session) (m : Inbound) (stream function : UInt8) (vs : List Variable)
    (bad : AlertKey) (next : Session → Session) (now : Nat) : Option Session :=
  if m.isFailedTransaction then some (next (s.replied.raise bad none))
  else if m.header.carries stream function then
    if m.header.system.transactionId = s.pollTransaction then
      some (next (s.replied.publishPoll m vs bad))
    else some (s.replied.arm .separateRequest (now + reestablishDelay))
  else none

/-- Handles a message that the session waits for. -/
def reply? (s : Session) (m : Inbound) (now : Nat) : Option Session :=
  match s.state with
  | .idle => none
  | .awaitingReply .select =>
    if m.isSelectResponse then
      some ({ s.replied with state := .awaitingEquipment }.arm .establishFallback
        (now + establishFallback))
    else none
  | .awaitingEquipment =>
    if m.header.carries 1 13 then
      let answer := s.parties.reply 1 14 m.header.system Body.establishAcknowledge
      some ((s.replied.send answer).arm .establishFallback (now + establishFallback))
    else none
  | .awaitingReply .establish =>
    if m.header.carries 1 14 && m.establishCode? == some Body.accepted then
      some (s.replied.sendRequest .enableAlarms now)
    else none
  | .awaitingReply .enableAlarms =>
    if accepts m 5 4 || accepts m 5 0 then
      if s.catalog.hasReports then some (s.replied.sendRequest .deleteReports now)
      else some (s.replied.completeHandshake now)
    else none
  | .awaitingReply .deleteReports => s.acknowledged? m 34 (some .defineReports) now
  | .awaitingReply .defineReports => s.acknowledged? m 34 (some .linkReports) now
  | .awaitingReply .linkReports => s.acknowledged? m 36 (some .enableEvents) now
  | .awaitingReply .enableEvents => s.acknowledged? m 38 none now
  | .awaitingReply .statusVariables =>
    s.polled? m 1 4 s.catalog.status .badStatusResponse (fun s => s.afterStatus now) now
  | .awaitingReply .equipmentConstants =>
    s.polled? m 2 14 s.catalog.constants .badConstantResponse (fun s => s.enterIdle now) now
  | .awaitingWrite =>
    if accepts m 2 16 then some (((s.cancel .writeTimeout).clear .writeFailed).enterIdle now)
    else none

end GemLink.Session
