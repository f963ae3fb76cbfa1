import LightBridge.Resource.Collection
import LightBridge.Resource.Handle

/-!
Sensors: switches, motion and daylight sensors, and sensors that exist only in software.

All kinds have the same layout, so one handle serves them all; the collection can be searched by the
type that the bridge reports.
-/

namespace LightBridge

/-- A sensor. -/
structure Sensor extends Handle Int32

namespace Sensor

/-- The alert of a sensor: none, a single flash, or flashes for a while. -/
inductive Alert where
  | off
  | single
  | long
deriving DecidableEq, Repr

/-- The name of an alert. -/
def Alert.name : Alert → String
  | .off => "none"
  | .single => "select"
  | .long => "lselect"

/-- The alert with a name; an unknown name is no alert. -/
def Alert.ofName (name : String) : Alert :=
  if name = Alert.single.name then .single
  else if name = Alert.long.name then .long
  else .off

theorem Alert.ofName_name (a : Alert) : Alert.ofName a.name = a := by cases a <;> rfl

/-- The path of the collection of sensors. -/
def collection : String := "/sensors"

/-- The path of the sensor. -/
def path (s : Sensor) : String := collection ++ "/" ++ int32Text s.id

/-- The name. -/
def name (s : Sensor) : Act String := s.textAt ["name"]

/-- The type that the bridge reports. -/
def kind (s : Sensor) : Act String := s.textAt ["type"]

/-- The model. -/
def model (s : Sensor) : Act String := s.textAt ["modelid"]

/-- The manufacturer. -/
def manufacturer (s : Sensor) : Act String := s.textAt ["manufacturername"]

/-- The unique id of the device. -/
def uniqueId (s : Sensor) : Act String := s.textAt ["uniqueid"]

/-- The field `key` of the sensor, or an empty object. -/
def sectionAt (s : Sensor) (key : String) : Act Json :=
  s.look fun v => (v.get? key).getD (.object [])

/-- The configuration. -/
def config (s : Sensor) : Act Json := s.sectionAt "config"

/-- The state. -/
def state (s : Sensor) : Act Json := s.sectionAt "state"

/-- Whether the sensor is on. -/
def isOn (s : Sensor) : Act Bool := s.flagAt ["config", "on"]

/-- Whether the bridge reaches the sensor. -/
def isReachable (s : Sensor) : Act Bool := s.flagAt ["config", "reachable"]

/-- The charge in percent of a sensor with a battery. -/
def battery? (s : Sensor) : Act (Option UInt8) := s.byteAt? ["config", "battery"]

/-- The last alert. -/
def lastAlert (s : Sensor) : Act Alert := s.look fun v => Alert.ofName (v.textAt ["config", "alert"])

/-- When the state changed last, in the bridge's words; empty when it never did. -/
def lastUpdated (s : Sensor) : Act String := s.textAt ["state", "lastupdated"]

/-- The code of the last button event, or zero. -/
def buttonEvent (s : Sensor) : Act Int :=
  s.look fun v => ((v.at? ["state", "buttonevent"]).bind Json.int64?).getD 0

/-- Renames the sensor. -/
def rename (s : Sensor) (name : String) : Act Bool := s.write s.path [("name", .string name)]

/-- Sets an attribute of the configuration. -/
def setConfig (s : Sensor) (key : String) (value : Json) : Act Bool :=
  s.write (s.path ++ "/config") [(key, value)]

/-- Sets an attribute of the state. -/
def setState (s : Sensor) (key : String) (value : Json) : Act Bool :=
  s.write (s.path ++ "/state") [(key, value)]

/-- Switches the sensor on or off. -/
def setOn (s : Sensor) (on : Bool) : Act Bool := s.setConfig "on" (.bool on)

/-- Sends an alert. -/
def sendAlert (s : Sensor) (alert : Alert) : Act Bool := s.setConfig "alert" (.string alert.name)

/-- What can be asked of a sensor. -/
inductive Operation where
  | id
  | refresh
  | name
  | kind
  | model
  | manufacturer
  | uniqueId
  | config
  | state
  | isOn
  | isReachable
  | battery
  | lastAlert
  | lastUpdated
  | buttonEvent
  | rename (name : String)
  | setConfig (key : String) (value : Json)
  | setState (key : String) (value : Json)
  | setOn (on : Bool)
  | sendAlert (alert : Alert)

/-- Does what is asked. -/
def perform (s : Sensor) : Operation → Act Reading
  | .id => pure (.integer s.id.toInt)
  | .refresh => do s.refresh; pure .nothing
  | .name => .text <$> s.name
  | .kind => .text <$> s.kind
  | .model => .text <$> s.model
  | .manufacturer => .text <$> s.manufacturer
  | .uniqueId => .text <$> s.uniqueId
  | .config => .state <$> s.config
  | .state => .state <$> s.state
  | .isOn => .flag <$> s.isOn
  | .isReachable => .flag <$> s.isReachable
  | .battery => .ofByte? <$> s.battery?
  | .lastAlert => (fun alert => .text alert.name) <$> s.lastAlert
  | .lastUpdated => .text <$> s.lastUpdated
  | .buttonEvent => .integer <$> s.buttonEvent
  | .rename name => .flag <$> s.rename name
  | .setConfig key value => .flag <$> s.setConfig key value
  | .setState key value => .flag <$> s.setState key value
  | .setOn on => .flag <$> s.setOn on
  | .sendAlert alert => .flag <$> s.sendAlert alert

/-- One thing that can be set on a sensor to be made. -/
inductive Setting where
  | state (value : Json)
  | config (value : Json)
  | recycle (value : Bool)

/-- The field that a setting writes. -/
def Setting.field : Setting → String × Json
  | .state v => ("state", v)
  | .config v => ("config", v)
  | .recycle b => ("recycle", .bool b)

/-- A sensor to be made. -/
structure Draft where
  name : String
  model : String
  softwareVersion : String
  kind : String
  uniqueId : String
  manufacturer : String
  settings : List Setting

/-- The parameters that make a sensor. -/
def Draft.parameters (d : Draft) : Json :=
  .object (Fields.putAll
    [("name", .string d.name), ("modelid", .string d.model),
      ("swversion", .string d.softwareVersion), ("type", .string d.kind),
      ("uniqueid", .string d.uniqueId), ("manufacturername", .string d.manufacturer)]
    (d.settings.map Setting.field))

end Sensor

namespace Sensors

/-- The ids of the reported sensors of a type. -/
def idsOfKind (fields : Fields) (kind : String) : List Int32 :=
  (fields.filter fun field => (field.2.get? "type").bind Json.string? == some kind).filterMap
    fun field => readInt32? field.1

/-- The sensors of a type, in the order of ids. The types are looked up first; then the collection is
listed, which may fetch again. -/
def getAllOfKind (kind : String) : ActOn (Collection Int32) (List (Resource Int32)) := do
  let l ← ActOn.current
  let fields ← l.reported
  let all ← Collection.getAll
  pure (all.filter fun r => (idsOfKind fields kind).contains r.id)

/-- A readable description of the collection. -/
def describe (l : Collection Int32) : String := "SensorList \x7b list: " ++ l.describe ++ " \x7d"

end Sensors

end LightBridge
