import LightBridge.Resource.Handle

/-!
Groups of lights, and what a new group is made of.
-/

namespace LightBridge

/-- A group of lights. -/
structure Group extends Handle Int32

namespace Group

/-- The path of the collection of groups. -/
def collection : String := "/groups"

/-- The path of the group with an id. -/
def pathOf (id : Int32) : String := collection ++ "/" ++ int32Text id

/-- The path of the action of a group, where its lights are controlled together. -/
def actionPath (id : Int32) : String := pathOf id ++ "/action"

/-- The path of the group. -/
def path (g : Group) : String := pathOf g.id

/-- The name. -/
def name (g : Group) : Act String := g.textAt ["name"]

/-- The type that the bridge reports. -/
def kind (g : Group) : Act String := g.textAt ["type"]

/-- The lights in the group. -/
def lights (g : Group) : Act (List Int32) := g.idsAt ["lights"]

/-- The class of a room. -/
def roomClass? (g : Group) : Act (Option String) := g.textAt? ["class"]

/-- Whether all lights are on. -/
def allOn (g : Group) : Act Bool := g.flagAt ["state", "all_on"]

/-- Whether some light is on. -/
def anyOn (g : Group) : Act Bool := g.flagAt ["state", "any_on"]

/-- Whether the last action switched the group on. -/
def actionOn (g : Group) : Act Bool := g.flagAt ["action", "on"]

/-- The brightness of the last action. -/
def actionBrightness? (g : Group) : Act (Option UInt8) := g.byteAt? ["action", "bri"]

/-- The colour mode of the last action. -/
def actionColorMode? (g : Group) : Act (Option String) := g.textAt? ["action", "colormode"]

/-- Renames the group. -/
def rename (g : Group) (name : String) : Act Bool := g.write g.path [("name", .string name)]

/-- Sets the lights in the group. -/
def setLights (g : Group) (ids : List Int32) : Act Bool :=
  g.write g.path [("lights", LightIds.toJson ids)]

/-- Sets the class of a room. -/
def setRoomClass (g : Group) (roomClass : String) : Act Bool :=
  g.write g.path [("class", .string roomClass)]

/-- Activates a scene on the group with an id. -/
def activateScene (channel : Channel) (id : Int32) (scene : String) : Act Bool :=
  channel.write (actionPath id) [("scene", .string scene)]

/-- Starts a change of the action. -/
def changeAction (g : Group) : Act Change := g.change "action" (actionPath g.id)

/-- What can be asked of a group. -/
inductive Operation where
  | id
  | refresh
  | name
  | kind
  | lights
  | roomClass
  | allOn
  | anyOn
  | actionOn
  | actionBrightness
  | actionColorMode
  | rename (name : String)
  | setLights (ids : List Int32)
  | setRoomClass (roomClass : String)
  | activateScene (scene : String)
deriving Repr

/-- Does what is asked. -/
def perform (g : Group) : Operation → Act Reading
  | .id => pure (.integer g.id.toInt)
  | .refresh => do g.refresh; pure .nothing
  | .name => .text <$> g.name
  | .kind => .text <$> g.kind
  | .lights => .ids <$> g.lights
  | .roomClass => .ofText? <$> g.roomClass?
  | .allOn => .flag <$> g.allOn
  | .anyOn => .flag <$> g.anyOn
  | .actionOn => .flag <$> g.actionOn
  | .actionBrightness => .ofByte? <$> g.actionBrightness?
  | .actionColorMode => .ofText? <$> g.actionColorMode?
  | .rename name => .flag <$> g.rename name
  | .setLights ids => .flag <$> g.setLights ids
  | .setRoomClass roomClass => .flag <$> g.setRoomClass roomClass
  | .activateScene scene => .flag <$> activateScene g.channel g.id scene

/-- The kinds of groups that can be made; only a room has a class. -/
inductive Kind where
  | lightGroup
  | room (roomClass : Option String)
  | zone
  | entertainment
deriving DecidableEq, Repr

/-- The name of a kind. -/
def Kind.name : Kind → String
  | .lightGroup => "LightGroup"
  | .room _ => "Room"
  | .zone => "Zone"
  | .entertainment => "Entertainment"

/-- The class of a kind. -/
def Kind.roomClass? : Kind → Option String
  | .room roomClass => roomClass
  | _ => none

/-- A group to be made. -/
structure Draft where
  lights : List Int32
  name : String
  kind : Kind
deriving DecidableEq, Repr

/-- The parameters that make a group; a group without a name gets one from the bridge. -/
def Draft.parameters (d : Draft) : Json :=
  let name := if d.name.isEmpty then [] else [("name", Json.string d.name)]
  let roomClass := d.kind.roomClass?.toList.map fun c => ("class", Json.string c)
  .object ([("lights", LightIds.toJson d.lights), ("type", .string d.kind.name)] ++ name ++ roomClass)

end Group

end LightBridge
