import LightBridge.Resource.Handle

/-!
Schedules: timers of a bridge that send one request when they fire.
-/

namespace LightBridge

namespace Schedule

/-- The request that a schedule sends, with its full address. -/
structure Command where
  address : String
  method : Method
  body : Json

/-- The command that a bridge reports. It must have a method; an address that is missing is empty,
and a missing body is an empty object. -/
def Command.ofJson (v : Json) : Except Fault Command :=
  match ((v.get? "method").bind Json.string?).bind Method.ofName? with
  | some method =>
    .ok { address := v.textAt ["address"], method, body := (v.get? "body").getD (.object []) }
  | none => .error (.malformed (.noMethod v))

/-- A command as it is written. -/
def Command.toJson (c : Command) : Json :=
  .object [("address", .string c.address), ("method", .string c.method.name), ("body", c.body)]

theorem Command.ofJson_toJson (c : Command) : Command.ofJson c.toJson = .ok c := by
  have h : ((c.toJson.get? "method").bind Json.string?).bind Method.ofName? = some c.method :=
    Method.ofName?_name c.method
  rw [ofJson, h]
  rfl

/-- The name of a status: whether the schedule is enabled. -/
def statusName (enabled : Bool) : String := if enabled then "enabled" else "disabled"

/-- One thing that can be set on a schedule, when it is made or later. -/
inductive Setting where
  | name (name : String)
  | description (description : String)
  | command (command : Command)
  | time (pattern : String)
  | status (enabled : Bool)
  | autodelete (value : Bool)
  | recycle (value : Bool)

/-- The field that a setting writes. -/
def Setting.field : Setting → String × Json
  | .name s => ("name", .string s)
  | .description s => ("description", .string s)
  | .command c => ("command", c.toJson)
  | .time s => ("localtime", .string s)
  | .status enabled => ("status", .string (statusName enabled))
  | .autodelete b => ("autodelete", .bool b)
  | .recycle b => ("recycle", .bool b)

/-- The parameters that make a schedule; what is not set is left to the bridge. -/
def parameters (settings : List Setting) : Json :=
  .object (Fields.putAll [] (settings.map Setting.field))

end Schedule

/-- A schedule. -/
structure Schedule extends Handle Int32

namespace Schedule

/-- The path of the collection of schedules. -/
def collection : String := "/schedules"

/-- The path of the schedule. -/
def path (s : Schedule) : String := collection ++ "/" ++ int32Text s.id

/-- The name. -/
def name (s : Schedule) : Act String := s.textAt ["name"]

/-- The description. -/
def description (s : Schedule) : Act String := s.textAt ["description"]

/-- The command that is sent. -/
def command (s : Schedule) : Act Command := do
  let reported ← s.look fun v => (v.get? "command").getD .null
  Act.ofExcept (Command.ofJson reported)

/-- The time pattern of a state: the local one, or else the plain one. -/
def timeOf (v : Json) : String :=
  let localTime := v.textAt ["localtime"]
  if localTime.isEmpty then v.textAt ["time"] else localTime

/-- The time pattern. -/
def time (s : Schedule) : Act String := s.look timeOf

/-- Whether the schedule is enabled. -/
def isEnabled (s : Schedule) : Act Bool := s.look fun v => v.textAt ["status"] == statusName true

/-- Whether the schedule is deleted once it has fired. -/
def autodelete (s : Schedule) : Act Bool := s.flagAt ["autodelete"]

/-- Sets one thing. -/
def set (s : Schedule) (setting : Setting) : Act Bool := s.write s.path [setting.field]

/-- What can be asked of a schedule. -/
inductive Operation where
  | id
  | refresh
  | name
  | description
  | command
  | time
  | status
  | autodelete
  | set (setting : Setting)

/-- Does what is asked. -/
def perform (s : Schedule) : Operation → Act Reading
  | .id => pure (.integer s.id.toInt)
  | .refresh => do s.refresh; pure .nothing
  | .name => .text <$> s.name
  | .description => .text <$> s.description
  | .command => (fun c => .state c.toJson) <$> s.command
  | .time => .text <$> s.time
  | .status => (fun enabled => .text (statusName enabled)) <$> s.isEnabled
  | .autodelete => .flag <$> s.autodelete
  | .set setting => .flag <$> s.set setting

end Schedule

end LightBridge
