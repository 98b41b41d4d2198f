import GemLink.Proofs.Item.RoundTrip
import GemLink.Proofs.Message.Framing
import GemLink.Proofs.Message.Header

/-!
What a host sends is read back as it was meant. A message is one whole frame (`isFrame_message`), so
a buffer gives it as it is, whatever comes behind it; its header is read from its frame, and what
follows the header is the body (`read?_message`). For the three kinds of messages of a host
(`Outgoing`) this is the round trip from end to end (`read_back`).
-/

namespace GemLink

/-! ## Messages -/

namespace Header

variable (h : Header) (body : Option Item)

@[simp] theorem length_encode (h : Header) : h.encode.length = size := by
  simp [encode, size]

theorem take_message :
    (h.message body).take lengthPrefixSize =
      Bytes.ofNat lengthPrefixSize (size + (body.map Item.encodedSize).getD 0) := by
  unfold message
  rw [List.append_assoc, List.take_left' (Bytes.length_ofNat _ _)]

theorem drop_message :
    (h.message body).drop bodyOffset = (body.map Item.encode).getD [] := by
  unfold message
  refine List.drop_left' ?_
  rw [List.length_append, Bytes.length_ofNat, length_encode, bodyOffset]

theorem length_message :
    (h.message body).length = lengthPrefixSize + (size + (body.map Item.encodedSize).getD 0) := by
  have hb : ((body.map Item.encode).getD []).length = (body.map Item.encodedSize).getD 0 := by
    cases body with
    | none => rfl
    | some item => exact Item.length_encode item
  unfold message
  dsimp only
  rw [List.length_append, List.length_append, Bytes.length_ofNat, length_encode, hb, Nat.add_assoc]

/-- A message is one whole frame, if its length can be written. -/
theorem isFrame_message (hl : size + (body.map Item.encodedSize).getD 0 < 2 ^ 32) :
    IsFrame (h.message body) := by
  rw [IsFrame, take_message, length_message, Bytes.toNat_ofNat hl]

end Header

/-- A message is read from its frame. -/
theorem Inbound.read?_message (h : Header) (body : Option Item) (hs : h.stream.toNat < 128) :
    Inbound.read? (h.message body) = some ⟨h, (body.map Item.encode).getD []⟩ := by
  unfold Inbound.read?
  rw [Header.read?_message h body hs, Header.drop_message]
  rfl

/-- The item at the front of a body that was written as one item. -/
theorem Inbound.firstItem?_encode {m : Inbound} {item : Item} (hm : m.body = item.encode)
    (hd : item.depth ≤ Item.depthLimit) (hf : item.Fits) : m.firstItem? = some item := by
  have hr := Item.read?_encode item hd hf []
  rw [List.append_nil] at hr
  rw [firstItem?, hm, Item.decode?, hr]
  rfl

/-! ## What a host sends -/

/-- What a host sends: a message that controls the link, a question, or an answer. -/
inductive Outgoing where
  | control (session : SessionType) (transactionId : UInt16)
  | request (stream function : UInt8) (transactionId : UInt16) (body : Item)
  | reply (stream function : UInt8) (system : SystemBytes) (body : Item)

namespace Outgoing

/-- The frame of what a host sends. -/
def frame (p : Parties) : Outgoing → Bytes
  | control session transactionId => p.control session transactionId
  | request stream function transactionId body => p.request stream function transactionId body
  | reply stream function system body => p.reply stream function system body

/-- What its header says. Only questions want an answer, and only answers bear the system bytes of
another message. -/
def header (p : Parties) : Outgoing → Header
  | control session transactionId =>
    { deviceId := Header.controlDevice, stream := 0, wait := false, function := 0
      presentation := 0, session, system := ⟨p.host, transactionId⟩ }
  | request stream function transactionId _ =>
    { deviceId := p.equipment, stream, wait := true, function
      presentation := 0, session := SessionType.data, system := ⟨p.host, transactionId⟩ }
  | reply stream function system _ =>
    { deviceId := p.equipment, stream, wait := false, function
      presentation := 0, session := SessionType.data, system }

/-- The item that it carries. -/
def body? : Outgoing → Option Item
  | control _ _ => none
  | request _ _ _ body | reply _ _ _ body => some body

/-- Whether it can be written: the stream leaves the wait bit free, the body nests no deeper and is
no longer than it can be read, and the length of the frame fits its prefix. -/
def Fits : Outgoing → Prop
  | control _ _ => True
  | request stream _ _ body | reply stream _ _ body =>
    stream.toNat < 128 ∧ body.depth ≤ Item.depthLimit ∧ body.Fits ∧
      Header.size + body.encodedSize < 2 ^ 32

variable {p : Parties} {o : Outgoing}

theorem frame_eq (p : Parties) (o : Outgoing) : o.frame p = (o.header p).message o.body? := by
  cases o <;> rfl

theorem Fits.stream_lt (h : o.Fits) : (o.header p).stream.toNat < 128 := by
  cases o with
  | control => exact Nat.zero_lt_succ 127
  | request => exact h.1
  | reply => exact h.1

theorem Fits.size_lt (h : o.Fits) :
    Header.size + (o.body?.map Item.encodedSize).getD 0 < 2 ^ 32 := by
  cases o with
  | control => exact (by decide : Header.size + 0 < 2 ^ 32)
  | request => exact h.2.2.2
  | reply => exact h.2.2.2

theorem Fits.firstItem? (h : o.Fits) {m : Inbound}
    (hm : m.body = (o.body?.map Item.encode).getD []) : m.firstItem? = o.body? := by
  cases o with
  | control => rw [Inbound.firstItem?, hm]; rfl
  | request => exact Inbound.firstItem?_encode hm h.2.1 h.2.2.1
  | reply => exact Inbound.firstItem?_encode hm h.2.1 h.2.2.1

/-- What a host sends is read back: a buffer that was empty and has room for the frame accepts it
and gives it as it is, whatever other bytes it accepts behind it; the header and the item that are
read from it are those with which it was made. -/
theorem read_back (p : Parties) (o : Outgoing) (h : o.Fits) (capacity : Nat)
    (hc : (o.frame p).length ≤ capacity) :
    ∃ b, FrameBuffer.push? { capacity } (o.frame p) = some b ∧
      (∀ pieces : List Bytes, ∃ rest,
        (b.pushAll pieces).next? = some (o.frame p, { capacity, bytes := rest })) ∧
      ∃ m, Inbound.read? (o.frame p) = some m ∧ m.header = o.header p ∧
        m.firstItem? = o.body? := by
  have hpush : FrameBuffer.push? { capacity } (o.frame p) =
      some { capacity, bytes := o.frame p } := by
    refine FrameBuffer.push?_of_le ?_
    rwa [List.length_nil, Nat.zero_add]
  have hframe : IsFrame (o.frame p) := by
    rw [frame_eq]
    exact Header.isFrame_message _ _ h.size_lt
  have hlong : lengthPrefixSize < (o.frame p).length := by
    rw [frame_eq, Header.length_message]
    unfold Header.size
    omega
  have hread := Inbound.read?_message (o.header p) o.body? h.stream_lt
  rw [← frame_eq] at hread
  refine ⟨_, hpush, fun pieces => ?_, _, hread, rfl, h.firstItem? rfl⟩
  obtain ⟨rest, hrest⟩ := FrameBuffer.exists_pushAll_eq { capacity, bytes := o.frame p } pieces
  refine ⟨rest, ?_⟩
  rw [hrest]
  exact FrameBuffer.next?_of_bytes hlong hframe rfl

/-- An answer with a nested body to the question of another party. -/
def nestedReply : Outgoing :=
  reply 6 12 ⟨0x0102, 0xFFFF⟩ (.list [.list [.u2 [7, 300]], .ascii "°C", .f4 [⟨0x7FC00001⟩]])

/-- The front of another frame is accepted behind the answer; the rest of it no longer fits. -/
theorem read_back_nestedReply :
    nestedReply.Fits ∧ (nestedReply.frame ⟨1, 2⟩).length ≤ 40 ∧
      ∃ b, FrameBuffer.push? ⟨40, []⟩ (nestedReply.frame ⟨1, 2⟩) = some b ∧
        ((b.pushAll [[0, 0, 0], [10, 1, 2, 3]]).next?.map Prod.fst) =
          some (nestedReply.frame ⟨1, 2⟩) := by
  have hfits : nestedReply.Fits := ⟨by decide, by decide, by decide, by decide⟩
  have hroom : (nestedReply.frame ⟨1, 2⟩).length ≤ 40 := by decide
  obtain ⟨b, hpush, hnext, -⟩ := read_back ⟨1, 2⟩ nestedReply hfits 40 hroom
  obtain ⟨rest, hrest⟩ := hnext [[0, 0, 0], [10, 1, 2, 3]]
  exact ⟨hfits, hroom, b, hpush, by rw [hrest, Option.map_some]⟩

end Outgoing

end GemLink
