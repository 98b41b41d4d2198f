import GemLink.Keyed
import GemLink.Machine.Json
import GemLink.Text.Utf8

/-!
The configuration of the gateway, which comes from the environment, and the machine definition that
it names. A variable that is not well-formed text counts as unset.
-/

namespace GemLink

/-- Why there is no configuration or no machine definition. -/
inductive ConfigError where
  /-- A variable that must be set is not. -/
  | missing (variableName : String)
  /-- The value of a variable is not what it should be. -/
  | invalid (variableName value : String)
  /-- The machine definition cannot be read. -/
  | unreadable (path : String)
  /-- The machine definition is malformed. -/
  | malformed (path : String)
  deriving DecidableEq, Repr

/-- The text of the errors that are about the environment alone. -/
def ConfigError.message? : ConfigError → Option String
  | .missing name => some ("missing required env: " ++ name)
  | .invalid name value => some ("invalid value for " ++ name ++ ": " ++ value)
  | .unreadable _ | .malformed _ => none

/-- An environment: the bytes of its variables. -/
abbrev Environment := Keyed Bytes

namespace Environment

/-- The text of a variable. -/
def text? (env : Environment) (name : String) : Option String :=
  (Keyed.get? env name).bind Utf8.decode?

/-- The text of a variable that counts as unset when it is empty. -/
def filled? (env : Environment) (name : String) : Option String :=
  (env.text? name).filter fun value => !value.isEmpty

/-- Reads a natural number below a bound from the text of a variable. -/
def numberBelow (bound : Nat) (name value : String) : Except ConfigError Nat :=
  match Numeral.unsigned? value.toList with
  | some n => if n < bound then .ok n else .error (.invalid name value)
  | none => .error (.invalid name value)

end Environment

/-- The configuration of the gateway. -/
structure Config where
  /-- The path of the machine definition. -/
  machineFile : String
  /-- Milliseconds after which an attempt to connect is given up. -/
  connectTimeout : Nat
  /-- The address of the equipment, in the place of the one that is defined. -/
  ipAddress : Option String
  /-- The port of the equipment, in the place of the one that is defined. -/
  port : Option UInt16
  deriving DecidableEq, Repr

namespace Config

/-- Milliseconds after which an attempt to connect is given up, unless the environment says more. -/
def defaultConnectTimeout : Nat := 5000

/-- The configuration that an environment holds. -/
def ofEnvironment (env : Environment) : Except ConfigError Config := do
  let machineFile ← match env.text? "HPL_MACHINE_FILE" with
    | some path => .ok path
    | none => .error (.missing "HPL_MACHINE_FILE")
  let connectTimeout ← match env.text? "HPL_CONNECT_TIMEOUT_MS" with
    | some value => Environment.numberBelow UInt64.size "HPL_CONNECT_TIMEOUT_MS" value
    | none => .ok defaultConnectTimeout
  let port ← match env.filled? "HPL_PORT" with
    | some value => (Environment.numberBelow UInt16.size "HPL_PORT" value).map some
    | none => .ok none
  return {
    machineFile, connectTimeout
    ipAddress := env.filled? "HPL_IP_ADDRESS"
    port := port.map UInt16.ofNat }

/-- The machine definition that a configuration names, with the address and port that it gives.
`file?` tells the contents of files. -/
def machine (c : Config) (file? : String → Option Bytes) : Except ConfigError Machine :=
  match (file? c.machineFile).bind Utf8.decode? with
  | none => .error (.unreadable c.machineFile)
  | some text =>
    match Machine.parse? text with
    | none => .error (.malformed c.machineFile)
    | some m =>
      .ok { m with model := { m.model with
        ipAddress := c.ipAddress.getD m.model.ipAddress
        port := c.port.getD m.model.port } }

end Config

end GemLink
