import GemLink.Error
import GemLink.Value

/-!
The data sink of a host: values of variables are put into a channel from which they can be received.
-/

namespace GemLink

/-- A value of a variable of a machine. -/
structure DataRecord where
  /-- The machine. -/
  machine : String
  /-- The variable. -/
  name : String
  /-- The value. -/
  value : Value

/-- A channel of values. -/
structure DataSink where
  /-- The values that have not been received. -/
  records : List DataRecord := []
  /-- Whether writing fails. -/
  failing : Bool := false
  /-- Whether nobody receives any more. -/
  abandoned : Bool := false

namespace DataSink

/-- Why nothing can be written, if so. -/
def fault? (d : DataSink) : Option HostError :=
  if d.failing then some (.write "sink unavailable")
  else if d.abandoned then some (.write "receiver dropped")
  else none

/-- Writes a value. -/
def write (d : DataSink) (record : DataRecord) : DataSink × Except HostError Unit :=
  match d.fault? with
  | some fault => (d, .error fault)
  | none => ({ d with records := d.records ++ [record] }, .ok ())

/-- Receives the value that was written first, if one waits. -/
def receive (d : DataSink) : Option DataRecord × DataSink :=
  match d.records with
  | [] => (none, d)
  | record :: rest => (some record, { d with records := rest })

/-- Stops receiving for good. -/
def abandon (d : DataSink) : DataSink :=
  { d with records := [], abandoned := true }

end DataSink

end GemLink
