import GemLink.Item.Cursor
import GemLink.Message.Frame

/-!
Messages: a frame whose first ten bytes are a header and whose remaining bytes, if any, hold the
items of the body. A header says which device is meant, whether an answer is wanted, which stream
and function or which link control the message is, and by which system bytes its answer is known.
-/

namespace GemLink

/-- What a message does on the link: `0` carries data, the others control the link itself. -/
abbrev SessionType := UInt8

namespace SessionType

/-- Carries data. -/
def data : SessionType := 0
/-- Asks to open the communication. -/
def selectRequest : SessionType := 1
/-- Opens the communication. -/
def selectResponse : SessionType := 2
/-- Asks whether the link is alive. -/
def linkTestRequest : SessionType := 5
/-- Tells that the link is alive. -/
def linkTestResponse : SessionType := 6
/-- Ends the communication. -/
def separateRequest : SessionType := 9

end SessionType

/-- By what an answer is matched with its question. -/
structure SystemBytes where
  /-- Who asked. -/
  sourceId : UInt16
  /-- Which question it was. -/
  transactionId : UInt16
  deriving DecidableEq, Repr

/-- The header of a message. -/
structure Header where
  /-- The device that is meant. -/
  deviceId : UInt16
  /-- The stream, without the wait bit. -/
  stream : UInt8
  /-- Whether an answer is wanted. -/
  wait : Bool
  /-- The function of the stream. -/
  function : UInt8
  /-- The coding of the body. -/
  presentation : UInt8
  /-- What the message does on the link. -/
  session : SessionType
  /-- By what its answer is known. -/
  system : SystemBytes
  deriving DecidableEq, Repr

namespace Header

/-- The bytes of a header. -/
def size : Nat := 10

/-- The device named by messages that control the link. -/
def controlDevice : UInt16 := 0xFFFF

/-- Reads the header of a frame, behind its length prefix. -/
def read? (frame : Bytes) : Option Header :=
  match frame with
  | _ :: _ :: _ :: _ :: d1 :: d0 :: s :: f :: p :: t :: s1 :: s0 :: t1 :: t0 :: _ =>
    some {
      deviceId := UInt16.ofNat (Bytes.toNat [d1, d0])
      stream := s &&& 0x7F
      wait := s &&& 0x80 != 0
      function := f
      presentation := p
      session := t
      system := ⟨UInt16.ofNat (Bytes.toNat [s1, s0]), UInt16.ofNat (Bytes.toNat [t1, t0])⟩ }
  | _ => none

/-- The bytes of a header. -/
def encode (h : Header) : Bytes :=
  Bytes.ofNat 2 h.deviceId.toNat ++
    [if h.wait then h.stream ||| 0x80 else h.stream, h.function, h.presentation, h.session] ++
    Bytes.ofNat 2 h.system.sourceId.toNat ++ Bytes.ofNat 2 h.system.transactionId.toNat

/-- Whether the message carries the given stream and function. -/
def carries (h : Header) (stream function : UInt8) : Bool :=
  h.session == SessionType.data && h.stream == stream && h.function == function

end Header

/-- The bytes of a frame that come before the body. -/
def bodyOffset : Nat := lengthPrefixSize + Header.size

/-- The frame of the message with header `h`: the length of all that follows, the header and the
body. -/
def Header.message (h : Header) (body : Option Item) : Bytes :=
  let size := (body.map Item.encodedSize).getD 0
  let bytes := (body.map Item.encode).getD []
  Bytes.ofNat lengthPrefixSize (Header.size + size) ++ h.encode ++ bytes

/-- The two parties of a link. -/
structure Parties where
  /-- The identifier of the equipment. -/
  equipment : UInt16
  /-- The identifier under which the host speaks. -/
  host : UInt16
  deriving DecidableEq, Repr

namespace Parties

/-- A message that controls the link. -/
def control (p : Parties) (session : SessionType) (transactionId : UInt16) : Bytes :=
  Header.message ⟨Header.controlDevice, 0, false, 0, 0, session, ⟨p.host, transactionId⟩⟩ none

/-- A question of the host. -/
def request (p : Parties) (stream function : UInt8) (transactionId : UInt16) (body : Item) :
    Bytes :=
  Header.message
    ⟨p.equipment, stream, true, function, 0, SessionType.data, ⟨p.host, transactionId⟩⟩ (some body)

/-- An answer of the host, known by the system bytes of the question. -/
def reply (p : Parties) (stream function : UInt8) (system : SystemBytes) (body : Item) : Bytes :=
  Header.message ⟨p.equipment, stream, false, function, 0, SessionType.data, system⟩ (some body)

end Parties

/-- A received message. -/
structure Inbound where
  /-- Its header. -/
  header : Header
  /-- The bytes behind the header. -/
  body : Bytes
  deriving DecidableEq, Repr

namespace Inbound

/-- Reads a frame, which must hold a header. -/
def read? (frame : Bytes) : Option Inbound :=
  (Header.read? frame).map fun header => ⟨header, frame.drop bodyOffset⟩

/-- The item at the front of the body. -/
def firstItem? (m : Inbound) : Option Item :=
  (Item.decode? m.body).map Prod.fst

/-- Whether the message opens the communication. -/
def isSelectResponse (m : Inbound) : Bool :=
  m.body.isEmpty && m.header.deviceId == Header.controlDevice &&
    m.header.session == SessionType.selectResponse

/-- Whether the message tells that the link is alive. -/
def isLinkTestResponse (m : Inbound) : Bool :=
  m.header.deviceId == Header.controlDevice && m.header.session == SessionType.linkTestResponse

/-- Whether the message tells that a transaction failed: S1F0 with a body of four bytes. -/
def isFailedTransaction (m : Inbound) : Bool :=
  m.body.length == 4 && m.header.carries 1 0

/-- The acknowledge code that the body is. -/
def acknowledgeCode? (m : Inbound) : Option UInt8 :=
  match m.firstItem? with
  | some (.binary [code]) => some code
  | _ => none

/-- The acknowledge code at the front of the answer to S1F13. -/
def establishCode? (m : Inbound) : Option UInt8 :=
  match m.firstItem? with
  | some (.list (.binary [code] :: _)) => some code
  | _ => none

end Inbound

/-! ## Bodies that do not depend on the machine -/

namespace Body

/-- The acknowledge code of acceptance. -/
def accepted : UInt8 := 0

/-- The identifier given to the host's own report definitions. -/
def dataId : UInt32 := 3000

/-- The bit that tells a set alarm from a cleared one. -/
def alarmSetBit : UInt8 := 0x80

/-- S1F13: asks to establish communication. -/
def establishRequest : Item := .list []

/-- S1F14: accepts to establish communication. -/
def establishAcknowledge : Item := .list [.binary [accepted], .list []]

/-- S5F3: enables all alarms. -/
def enableAlarms : Item := .list [.binary [0x80], .u4 []]

/-- S1F2: answers that the host is there. -/
def onlineData : Item := .list []

/-- The acceptance of an alarm or event report. -/
def acceptance : Item := .binary [accepted]

/-- S2F15: writes one equipment constant. -/
def constantWrite (id value : Item) : Item := .list [.list [id, value]]

end Body

end GemLink
