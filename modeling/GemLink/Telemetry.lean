/-!
Telemetry: what is counted while the driver runs.
-/

namespace GemLink

/-- What is counted. -/
inductive Counter where
  | framesReceived
  | framesSent
  | framesUnprocessed
  | bytesDiscarded
  | requestTimeouts
  | reconnectAttempts
  | decodeFailures
  | valuesPublished
  | publishFailures
  deriving DecidableEq, Repr

/-- All counters. -/
def Counter.all : List Counter :=
  [.framesReceived, .framesSent, .framesUnprocessed, .bytesDiscarded, .requestTimeouts,
   .reconnectAttempts, .decodeFailures, .valuesPublished, .publishFailures]

/-- The state of all counters. -/
structure Counters where
  framesReceived : Nat := 0
  framesSent : Nat := 0
  framesUnprocessed : Nat := 0
  bytesDiscarded : Nat := 0
  requestTimeouts : Nat := 0
  reconnectAttempts : Nat := 0
  decodeFailures : Nat := 0
  valuesPublished : Nat := 0
  publishFailures : Nat := 0
  deriving DecidableEq, Repr

namespace Counters

/-- The state of one counter. -/
def get (c : Counters) : Counter → Nat
  | .framesReceived => c.framesReceived
  | .framesSent => c.framesSent
  | .framesUnprocessed => c.framesUnprocessed
  | .bytesDiscarded => c.bytesDiscarded
  | .requestTimeouts => c.requestTimeouts
  | .reconnectAttempts => c.reconnectAttempts
  | .decodeFailures => c.decodeFailures
  | .valuesPublished => c.valuesPublished
  | .publishFailures => c.publishFailures

/-- A counter as it is reported: a register of 64 bits, which begins anew after the last number. -/
def register (c : Counters) (counter : Counter) : UInt64 :=
  UInt64.ofNat (c.get counter)

/-- Counts `n` more. -/
def add (c : Counters) (counter : Counter) (n : Nat) : Counters :=
  match counter with
  | .framesReceived => { c with framesReceived := c.framesReceived + n }
  | .framesSent => { c with framesSent := c.framesSent + n }
  | .framesUnprocessed => { c with framesUnprocessed := c.framesUnprocessed + n }
  | .bytesDiscarded => { c with bytesDiscarded := c.bytesDiscarded + n }
  | .requestTimeouts => { c with requestTimeouts := c.requestTimeouts + n }
  | .reconnectAttempts => { c with reconnectAttempts := c.reconnectAttempts + n }
  | .decodeFailures => { c with decodeFailures := c.decodeFailures + n }
  | .valuesPublished => { c with valuesPublished := c.valuesPublished + n }
  | .publishFailures => { c with publishFailures := c.publishFailures + n }

/-- The sum of two counts, counter by counter. -/
def plus (a b : Counters) : Counters :=
  Counter.all.foldl (fun c counter => c.add counter (b.get counter)) a

end Counters

end GemLink
