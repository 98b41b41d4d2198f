import GemLink.Message.Basic
import GemLink.Proofs.Bytes

/-!
The header of a sent message is read back from its frame (`read?_message`), if the wait bit is not
part of the stream. So a frame carries the stream and the function with which it was made, and of
the frames that a host makes only its questions are primary messages. With the message that asks to
open the communication they are all that a host asks (`isRequest`).
-/

namespace GemLink.Header

/-- Streams leave the wait bit free. -/
theorem and_wait_of_lt {stream : UInt8} (h : stream.toNat < 128) :
    stream &&& 0x7F = stream ∧ stream &&& 0x80 = 0 ∧
      (stream ||| 0x80) &&& 0x7F = stream ∧ (stream ||| 0x80) &&& 0x80 ≠ 0 := by
  have hall : ∀ n < 128, UInt8.ofNat n &&& 0x7F = UInt8.ofNat n ∧ UInt8.ofNat n &&& 0x80 = 0 ∧
      (UInt8.ofNat n ||| 0x80) &&& 0x7F = UInt8.ofNat n ∧
      (UInt8.ofNat n ||| 0x80) &&& 0x80 ≠ 0 := by decide
  have hn := hall stream.toNat h
  rwa [UInt8.ofNat_toNat] at hn

theorem toUInt16_ofNat (n : UInt16) {hi lo : UInt8} (h : Bytes.ofNat 2 n.toNat = [hi, lo]) :
    UInt16.ofNat (Bytes.toNat [hi, lo]) = n := by
  rw [← h, Bytes.toNat_ofNat n.toNat_lt, UInt16.ofNat_toNat]

/-- The header of a message is read from its frame. -/
theorem read?_message (h : Header) (body : Option Item) (hs : h.stream.toNat < 128) :
    Header.read? (h.message body) = some h := by
  obtain ⟨device, stream, wait, function, presentation, session, source, transaction⟩ := h
  obtain ⟨l3, l2, l1, l0, hl⟩ : ∃ a b c d,
      Bytes.ofNat 4 (Header.size + (body.map Item.encodedSize).getD 0) = [a, b, c, d] :=
    ⟨_, _, _, _, rfl⟩
  obtain ⟨d1, d0, hd⟩ : ∃ a b, Bytes.ofNat 2 device.toNat = [a, b] := ⟨_, _, rfl⟩
  obtain ⟨s1, s0, hso⟩ : ∃ a b, Bytes.ofNat 2 source.toNat = [a, b] := ⟨_, _, rfl⟩
  obtain ⟨t1, t0, ht⟩ : ∃ a b, Bytes.ofNat 2 transaction.toNat = [a, b] := ⟨_, _, rfl⟩
  obtain ⟨h₁, h₂, h₃, h₄⟩ := and_wait_of_lt hs
  unfold Header.message Header.encode
  dsimp only [lengthPrefixSize]
  rw [hl, hd, hso, ht]
  simp only [List.cons_append, List.nil_append, Header.read?, toUInt16_ofNat _ hd,
    toUInt16_ofNat _ hso, toUInt16_ofNat _ ht]
  cases wait with
  | true => simp [h₃, h₄]
  | false => simp [h₁, h₂]

end GemLink.Header

namespace GemLink

/-- Whether a frame begins a transaction, which messages with an odd function do. -/
def isPrimary (frame : Bytes) : Bool :=
  (Header.read? frame).any fun h => h.session == SessionType.data && h.function.toNat % 2 == 1

/-- Whether a frame does on the link what a session type says. -/
def hasSession (session : SessionType) (frame : Bytes) : Bool :=
  (Header.read? frame).any fun h => h.session == session

/-- Whether a frame wants an answer to what it asks: it begins a transaction, or it asks to open the
communication. -/
def isRequest (frame : Bytes) : Bool :=
  isPrimary frame || hasSession SessionType.selectRequest frame

namespace Parties

variable (p : Parties)

theorem isPrimary_control (session : SessionType) (transactionId : UInt16) :
    isPrimary (p.control session transactionId) = false := by
  unfold isPrimary control
  rw [Header.read?_message _ _ (show (0 : UInt8).toNat < 128 by decide)]
  simp

theorem isPrimary_reply {stream function : UInt8} (hs : stream.toNat < 128)
    (hf : function.toNat % 2 = 0) (system : SystemBytes) (body : Item) :
    isPrimary (p.reply stream function system body) = false := by
  unfold isPrimary reply
  rw [Header.read?_message _ _ hs]
  simp [hf]

theorem hasSession_control (session session' : SessionType) (transactionId : UInt16) :
    hasSession session (p.control session' transactionId) = (session' == session) := by
  unfold hasSession control
  rw [Header.read?_message _ _ (show (0 : UInt8).toNat < 128 by decide)]
  rfl

theorem hasSession_request {stream function : UInt8} (hs : stream.toNat < 128)
    (session : SessionType) (transactionId : UInt16) (body : Item) :
    hasSession session (p.request stream function transactionId body) =
      (SessionType.data == session) := by
  unfold hasSession request
  rw [Header.read?_message _ _ hs]
  rfl

theorem hasSession_reply {stream function : UInt8} (hs : stream.toNat < 128)
    (session : SessionType) (system : SystemBytes) (body : Item) :
    hasSession session (p.reply stream function system body) = (SessionType.data == session) := by
  unfold hasSession reply
  rw [Header.read?_message _ _ hs]
  rfl

end Parties

end GemLink
