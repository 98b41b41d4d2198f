import GemLink.Host.Basic
import GemLink.Session.Events

/-!
The surroundings of a driver: its host, the equipment behind a network, the connections between
driver and equipment, and the clock.
-/

namespace GemLink

/-- The greatest number of bytes that are read at once. -/
def readChunk : Nat := 4096

/-- A connection that the equipment has accepted. -/
structure Socket where
  /-- What the equipment has sent and the driver has not read. -/
  unread : Bytes := []
  /-- Whether the driver holds its end open. -/
  driverOpen : Bool := true
  /-- Whether the equipment holds its end open. -/
  equipmentOpen : Bool := true
  /-- Whether the connection has broken down, so that the driver's end fails when it is used. -/
  broken : Bool := false
  /-- Whether the equipment does not read what it is sent, and all that is in between is full. -/
  full : Bool := false
  deriving DecidableEq, Repr

namespace Socket

/-- Whether both ends are open. -/
def isOpen (k : Socket) : Bool :=
  k.driverOpen && k.equipmentOpen

/-- Whether the connection takes nothing: who sends has to wait until the equipment reads, or the
connection ends. -/
def isStalled (k : Socket) : Bool :=
  k.full && k.isOpen && !k.broken

end Socket

/-- The network with the equipment behind it. -/
structure Network where
  /-- Whether the network carries connections at all. -/
  reachable : Bool
  /-- Whether the equipment accepts connections. -/
  listening : Bool
  /-- The connections that were accepted, the first one first. -/
  sockets : List Socket := []
  /-- What the equipment has received. -/
  received : Bytes := []
  /-- How many connections the driver has ended. -/
  ended : Nat := 0
  deriving DecidableEq, Repr

namespace Network

/-- How many connections were accepted. -/
def accepted (n : Network) : Nat :=
  n.sockets.length

/-- The connections of which the driver holds its end open. -/
def held (n : Network) : List Socket :=
  n.sockets.filter Socket.driverOpen

/-- Opens a connection, if the equipment can be reached; the number is that of the connection. -/
def accept? (n : Network) : Option (Network × Nat) :=
  if n.reachable && n.listening then
    some ({ n with sockets := n.sockets ++ [{}] }, n.sockets.length)
  else none

/-- Whether a connection takes nothing. -/
def isStalled (n : Network) (socket : Nat) : Bool :=
  n.sockets[socket]?.any Socket.isStalled

/-- Carries bytes to the equipment, unless the connection has broken down. They are carried when the
connection is not stalled, for which the sender has to wait. -/
def send? (n : Network) (socket : Nat) (bytes : Bytes) : Option Network :=
  match n.sockets[socket]? with
  | some k =>
    if k.broken then none
    else if k.isOpen then some { n with received := n.received ++ bytes }
    else some n
  | none => some n

/-- Ends a connection from the driver's side; the equipment ends it too. -/
def hangUp (n : Network) (socket : Nat) : Network :=
  let seen := (n.sockets[socket]?.map Socket.isOpen).getD false
  { n with
    sockets := n.sockets.modify socket fun k =>
      { k with driverOpen := false, equipmentOpen := false }
    ended := if seen then n.ended + 1 else n.ended }

/-- Sends bytes from the equipment. -/
def equipmentSend (n : Network) (bytes : Bytes) : Network :=
  { n with sockets := n.sockets.map fun k =>
      if k.isOpen then { k with unread := k.unread ++ bytes } else k }

/-- The equipment reads what it is sent, or does not until all that is in between is full. -/
def equipmentStall (n : Network) (full : Bool) : Network :=
  { n with sockets := n.sockets.map fun k => { k with full } }

/-- Ends the connection from the side of the equipment. With something left that the equipment has
not read, the connection breaks down. -/
def equipmentClose (n : Network) : Network :=
  { n with sockets := n.sockets.map fun k =>
      { k with equipmentOpen := false, broken := k.broken || k.full } }

/-- Breaks the connection down. What the driver has received but not read is still there. -/
def breakDown (n : Network) : Network :=
  { n with sockets := n.sockets.map fun k =>
      if k.driverOpen then { k with equipmentOpen := false, broken := true } else k }

/-- The bytes that wait to be read by the driver. -/
def waiting (n : Network) : Nat :=
  n.sockets.foldl (fun size k => size + k.unread.length) 0

end Network

end GemLink
