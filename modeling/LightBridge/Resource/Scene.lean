import LightBridge.Resource.Group
import LightBridge.Resource.Groups

/-!
Scenes: stored states of lights that can be activated on a group.
-/

namespace LightBridge

/-- A scene. -/
structure Scene extends Handle String

namespace Scene

/-- What a scene is bound to: a list of lights, or a group and whatever lights it has. -/
inductive Kind where
  | lightScene
  | groupScene
deriving DecidableEq, Repr

/-- The name of a kind. -/
def Kind.name : Kind → String
  | .lightScene => "LightScene"
  | .groupScene => "GroupScene"

/-- The kind with a name; every other name stands for a list of lights. -/
def Kind.ofName (name : String) : Kind :=
  if name = Kind.groupScene.name then .groupScene else .lightScene

/-- The path of the collection of scenes. -/
def collection : String := "/scenes"

/-- The path of the scene. -/
def path (s : Scene) : String := collection ++ "/" ++ s.id

/-- The name. -/
def name (s : Scene) : Act String := s.textAt ["name"]

/-- The kind. -/
def kind (s : Scene) : Act Kind := s.look fun v => Kind.ofName (v.textAt ["type"])

/-- The group of a scene that is bound to one. -/
def group? (s : Scene) : Act (Option Int32) := s.look fun v => readInt32? (v.textAt ["group"])

/-- The lights of the scene. -/
def lights (s : Scene) : Act (List Int32) := s.idsAt ["lights"]

/-- Who made the scene. -/
def owner (s : Scene) : Act String := s.textAt ["owner"]

/-- Whether the scene is in use and cannot be deleted. -/
def isLocked (s : Scene) : Act Bool := s.flagAt ["locked"]

/-- Whether the bridge may delete the scene when it needs room. -/
def recycle (s : Scene) : Act Bool := s.flagAt ["recycle"]

/-- Renames the scene. -/
def rename (s : Scene) (name : String) : Act Bool := s.write s.path [("name", .string name)]

/-- Sets the lights of the scene. -/
def setLights (s : Scene) (ids : List Int32) : Act Bool :=
  s.write s.path [("lights", LightIds.toJson ids)]

/-- Stores the present state of the lights in the scene. -/
def store (s : Scene) (transition : Option UInt16) : Act Bool :=
  s.write s.path (("storelightstate", .bool true) ::
    transition.toList.map fun tenths => (Setter.transitionKey, Setter.word tenths))

/-- Activates the scene: on its own group, or else on all lights. -/
def activate (s : Scene) : Act Bool := do
  let group ← match ← s.kind with
    | .groupScene => do pure ((← s.group?).getD Groups.allLights)
    | .lightScene => pure Groups.allLights
  Group.activateScene s.channel group s.id

/-- What can be asked of a scene. -/
inductive Operation where
  | id
  | refresh
  | name
  | kind
  | group
  | lights
  | owner
  | isLocked
  | recycle
  | rename (name : String)
  | setLights (ids : List Int32)
  | store (transition : Option UInt16)
  | activate
deriving Repr

/-- Does what is asked. -/
def perform (s : Scene) : Operation → Act Reading
  | .id => pure (.text s.id)
  | .refresh => do s.refresh; pure .nothing
  | .name => .text <$> s.name
  | .kind => (fun kind => .text kind.name) <$> s.kind
  | .group => .ofId? <$> s.group?
  | .lights => .ids <$> s.lights
  | .owner => .text <$> s.owner
  | .isLocked => .flag <$> s.isLocked
  | .recycle => .flag <$> s.recycle
  | .rename name => .flag <$> s.rename name
  | .setLights ids => .flag <$> s.setLights ids
  | .store transition => .flag <$> s.store transition
  | .activate => .flag <$> s.activate

/-- One thing that can be set on a scene to be made. -/
inductive Setting where
  | name (name : String)
  | group (id : Int32)
  | lights (ids : List Int32)
  | recycle (value : Bool)
deriving DecidableEq, Repr

/-- The fields that a setting writes, in order. -/
def Setting.fields : Setting → Fields
  | .name s => [("name", .string s)]
  | .group id => [("type", .string Kind.groupScene.name), ("group", .string (int32Text id))]
  | .lights ids => [("type", .string Kind.lightScene.name), ("lights", LightIds.toJson ids)]
  | .recycle b => [("recycle", .bool b)]

/-- The parameters that make a scene; what is not set is left to the bridge. -/
def parameters (settings : List Setting) : Json :=
  .object (Fields.putAll [] (settings.flatMap Setting.fields))

end Scene

end LightBridge
