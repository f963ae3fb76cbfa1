import LightBridge.Resource.Handle

/-!
Lights.
-/

namespace LightBridge

/-- A light that a bridge knows. -/
structure Light extends Handle Int32

namespace Light

/-- The path of the collection of lights. -/
def collection : String := "/lights"

/-- The path of the light. -/
def path (l : Light) : String := collection ++ "/" ++ int32Text l.id

/-- The name. -/
def name (l : Light) : Act String := l.textAt ["name"]

/-- The type that the bridge reports. -/
def kind (l : Light) : Act String := l.textAt ["type"]

/-- The model. -/
def model (l : Light) : Act String := l.textAt ["modelid"]

/-- Whether the light is on. -/
def isOn (l : Light) : Act Bool := l.flagAt ["state", "on"]

/-- Whether the bridge reaches the light. -/
def isReachable (l : Light) : Act Bool := l.flagAt ["state", "reachable"]

/-- The brightness of a light that can be dimmed. -/
def brightness? (l : Light) : Act (Option UInt8) := l.byteAt? ["state", "bri"]

/-- The colour mode of a light that has colours. -/
def colorMode? (l : Light) : Act (Option String) := l.textAt? ["state", "colormode"]

/-- Renames the light. -/
def rename (l : Light) (name : String) : Act Bool := l.write l.path [("name", .string name)]

/-- Starts a change of the state. -/
def changeState (l : Light) : Act Change := l.change "state" (l.path ++ "/state")

/-- Switches the light on or off over the given time. -/
def setOn (l : Light) (on : Bool) (transition : UInt16) : Act Bool := do
  let change ← l.changeState
  ((change.set (.on on)).set (.transition transition)).commit

/-- Lets the light flash once. -/
def flash (l : Light) : Act Bool := do
  let change ← l.changeState
  (change.set .flash).commit

/-- What can be asked of a light. -/
inductive Operation where
  | id
  | refresh
  | name
  | kind
  | model
  | isOn
  | isReachable
  | brightness
  | colorMode
  | rename (name : String)
  | setOn (on : Bool) (transition : UInt16)
  | flash
deriving Repr

/-- Does what is asked. -/
def perform (l : Light) : Operation → Act Reading
  | .id => pure (.integer l.id.toInt)
  | .refresh => do l.refresh; pure .nothing
  | .name => .text <$> l.name
  | .kind => .text <$> l.kind
  | .model => .text <$> l.model
  | .isOn => .flag <$> l.isOn
  | .isReachable => .flag <$> l.isReachable
  | .brightness => .ofByte? <$> l.brightness?
  | .colorMode => .ofText? <$> l.colorMode?
  | .rename name => .flag <$> l.rename name
  | .setOn on transition => .flag <$> l.setOn on transition
  | .flash => .flag <$> l.flash

end Light

end LightBridge
