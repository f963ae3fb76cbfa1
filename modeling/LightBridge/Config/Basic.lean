import LightBridge.Json.Printer
import LightBridge.Json.Reader
import LightBridge.Text.Blank
import LightBridge.Text.Quoted
import LightBridge.Time

/-!
Configurations of a bridge connection.

A configuration has eight fields, each with a default. In JSON its durations are milliseconds, and
the greatest 64-bit number stands for never. Three of its fields can be overridden by the
environment.
-/

namespace LightBridge

/-- How to reach a bridge and how to treat it. -/
structure Config where
  address : String
  port : UInt16
  /-- The user to act as; empty until paired. -/
  username : String
  /-- How long a fetched state is served. -/
  refreshInterval : Duration
  /-- The least time between two requests. -/
  minDelay : Duration
  /-- How long pairing waits for the link button. -/
  pairingTimeout : Duration
  /-- The pause between two pairing requests. -/
  pairingInterval : Duration
  /-- The name under which a new user is registered. -/
  deviceType : String
deriving DecidableEq, Repr

/-- Why a configuration cannot be had. -/
inductive ConfigError where
  /-- The file cannot be read or written. -/
  | storage
  /-- The text is no configuration. -/
  | text (cause : Json.ReadError)
  /-- A setting of the environment cannot be used. -/
  | setting (name value : String)
deriving DecidableEq, Repr

namespace Config

instance : Inhabited Config where
  default :=
    { address := "", port := 80, username := "", refreshInterval := .millis 10000
      minDelay := .millis 100, pairingTimeout := .millis 35000, pairingInterval := .millis 1000
      deviceType := "hue-sdk#rust" }

/-- The configuration for an address, with defaults for everything else. -/
def forAddress (address : String) : Config := { (default : Config) with address }

/-- The same configuration for another user. -/
def withUsername (c : Config) (username : String) : Config := { c with username }

/-- The fields of a configuration, in the order in which they are written. -/
inductive Field where
  | address
  | port
  | username
  | refreshInterval
  | minDelay
  | pairingTimeout
  | pairingInterval
  | deviceType
deriving DecidableEq, Repr

namespace Field

/-- All fields in order. -/
def all : List Field :=
  [address, port, username, refreshInterval, minDelay, pairingTimeout, pairingInterval, deviceType]

/-- The name of a field in JSON. -/
def name : Field → String
  | address => "address"
  | port => "port"
  | username => "username"
  | refreshInterval => "refresh_interval_ms"
  | minDelay => "min_delay_ms"
  | pairingTimeout => "pairing_timeout_ms"
  | pairingInterval => "pairing_interval_ms"
  | deviceType => "device_type"

/-- The field with a name. -/
def ofName? (name : String) : Option Field := all.find? fun f => f.name = name

theorem ofName?_name (f : Field) : ofName? f.name = some f := by cases f <;> decide

end Field

/-- The number that stands for never, the greatest of 64 bits. -/
def neverMillis : Nat := 0xFFFFFFFFFFFFFFFF

/-- The number that a duration is written as. Whatever cannot be told from never is never. -/
def millisOf : Duration → Nat
  | .millis n => min n neverMillis
  | .never => neverMillis

/-- The duration that a number stands for. -/
def durationOf (n : Nat) : Duration := if n = neverMillis then .never else .millis n

theorem millisOf_lt (d : Duration) : millisOf d < 0x10000000000000000 := by
  cases d with
  | millis n => exact Nat.lt_of_le_of_lt (Nat.min_le_right ..) (by decide)
  | never => decide

theorem durationOf_millisOf_millis (n : Nat) :
    durationOf (millisOf (.millis n)) = if n < neverMillis then .millis n else .never := by
  unfold durationOf millisOf
  by_cases h : n < neverMillis
  · simp [Nat.min_eq_left (Nat.le_of_lt h), Nat.ne_of_lt h, h]
  · simp [Nat.min_eq_right (Nat.le_of_not_lt h), h]

/-- A duration as a JSON value. -/
def durationJson (d : Duration) : Json := .number (.ofNat (millisOf d) (millisOf_lt d))

/-- A field of a configuration as a JSON value. -/
def value (c : Config) : Field → Json
  | .address => .string c.address
  | .port => .number (.ofUInt16 c.port)
  | .username => .string c.username
  | .refreshInterval => durationJson c.refreshInterval
  | .minDelay => durationJson c.minDelay
  | .pairingTimeout => durationJson c.pairingTimeout
  | .pairingInterval => durationJson c.pairingInterval
  | .deviceType => .string c.deviceType

/-- A configuration as a JSON value. -/
def toJson (c : Config) : Json := .object (Field.all.map fun f => (f.name, c.value f))

/-! ## Overrides -/

/-- The setting that overrides the address. -/
def addressSetting : String := "HUE_BRIDGE_ADDRESS"

/-- The setting that overrides the port. -/
def portSetting : String := "HUE_BRIDGE_PORT"

/-- The setting that overrides the user. -/
def usernameSetting : String := "HUE_USERNAME"

/-- The port that a setting denotes, apart from blanks around it. -/
def readPort? (setting : String) : Option UInt16 :=
  (Numeral.readNat? (Text.trimBlanks setting.toList)).bind fun n =>
    if n < 0x10000 then some (UInt16.ofNat n) else none

/-- The configuration after the overrides of an environment. They are applied in the order address,
port, user; the first one that cannot be used ends it, and those before it stay applied. -/
def override (c : Config) (setting : String → Option String) : Config × Except ConfigError Unit :=
  let c := { c with address := (setting addressSetting).getD c.address }
  let withUser (c : Config) := { c with username := (setting usernameSetting).getD c.username }
  match setting portSetting with
  | none => (withUser c, .ok ())
  | some text =>
    match readPort? text with
    | some port => (withUser { c with port }, .ok ())
    | none => (c, .error (.setting portSetting text))

end Config

namespace ConfigError

/-- A readable account, for the errors that have one. -/
def message? : ConfigError → Option String
  | .setting name value => some ("Invalid config value for " ++ name ++ ": " ++ Text.quote value)
  | _ => none

end ConfigError

end LightBridge
