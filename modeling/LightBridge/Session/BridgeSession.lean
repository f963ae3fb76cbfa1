import LightBridge.Bridge.Pairing
import LightBridge.Cache.Operation
import LightBridge.Change.Operation
import LightBridge.Session.Step

/-!
Sessions with one bridge.

Beside the bridge, a session keeps caches and pending changes under names. What a command asks of a
collection fails with the faults of the collection; what it asks of the bridge itself, or of a
handle, fails with the errors of a client.
-/

namespace LightBridge

namespace Bridge

/-- The collections whose ids are numbers. -/
inductive Section where
  | lights
  | groups
  | schedules
  | sensors
deriving DecidableEq, Repr

/-- Acts on a collection. -/
def onSection {α : Type} : Section → ActOn (Collection Int32) α → ActOn Bridge α
  | .lights => onLights
  | .groups => onGroups
  | .schedules => onSchedules
  | .sensors => onSensors

/-- Does what is asked of a collection. -/
def performOn (which : Section) (operation : Collection.Operation Int32) :
    ActOn (Collection Int32) (Collection.Answer Int32) :=
  match which, operation with
  | .groups, operation => Groups.perform operation
  | .sensors, .describe => Collection.reading fun l => pure (.text (Sensors.describe l))
  | _, operation => Collection.perform operation

/-- The cache of a collection. -/
def sectionCache (b : Bridge) : Section → Cache
  | .lights => b.connection.lights.cache
  | .groups => b.connection.groups.cache
  | .schedules => b.connection.schedules.cache
  | .sensors => b.connection.sensors.cache

/-- The entry of an id. -/
def entry (which : Section) (id : Int32) : ActOn Bridge (Resource Int32) :=
  onSection which (if which = .groups then Groups.get id else Collection.get id)

end Bridge

/-- A bridge, and what a session keeps beside it. -/
structure BridgeSession where
  bridge : Bridge
  kept : Table String Cache
  changes : Table String Change

namespace BridgeSession

/-- A session with a new bridge. -/
def start (config : Config) (script : Script) : Act BridgeSession := do
  let transport ← Act.addTransport script
  let bridge ← Bridge.connect config transport
  pure { bridge, kept := .empty, changes := .empty }

/-- The nodes that are held. -/
def held (s : BridgeSession) : List NodeId :=
  s.bridge.held ++ s.kept.values.map (·.node) ++
    s.changes.values.filterMap fun c => c.cache.map (·.node)

/-- Something to be done with a handle: an operation, or letting time pass. -/
inductive Timed (α : Type) where
  | operation (operation : α)
  | advance (d : Duration)

/-- A command. -/
inductive Command where
  | advance (d : Duration)
  | prepare (line : Script.Line)
  | info
  | name
  | apiVersion
  | refresh
  | config
  | onState (operation : Cache.Operation)
  | setUsername (username : String)
  /-- A new transport with only these answers, which take as long as those before. -/
  | setTransport (lines : List Script.Line)
  | pair
  | onSection (which : Bridge.Section) (operation : Collection.Operation Int32)
  | onScenes (operation : Collection.Operation String)
  | sensorsOfKind (kind : String)
  | withLight (id : Int32) (calls : List (Timed Light.Operation))
  | withGroup (id : Int32) (calls : List (Timed Group.Operation))
  | withSchedule (id : Int32) (calls : List (Timed Schedule.Operation))
  | withScene (id : String) (calls : List (Timed Scene.Operation))
  | withSensor (id : Int32) (calls : List (Timed Sensor.Operation))
  | keepSection (name : String) (which : Bridge.Section)
  | keepScenes (name : String)
  | keepEntry (name : String) (which : Bridge.Section) (id : Int32)
  | keepScene (name : String) (id : String)
  | onKept (name : String) (operation : Cache.Operation)
  | changeLight (name : String) (id : Int32)
  | changeGroup (name : String) (id : Int32)
  | onChange (change : String) (operation : Change.Operation)
  | commit (change : String)

/-- What a command answers. -/
inductive Answer where
  | nothing
  | flag (value : Bool)
  | text (value : String)
  | config (config : Config)
  | info (bridge : Bridge) (nextAllowed : Instant)
  | cache (answer : Cache.Answer)
  | numbered (answer : Collection.Answer Int32)
  | scenes (answer : Collection.Answer String)
  | ids (ids : List Int32)
  | readings (readings : List (Observed ClientError Reading))
  | change (answer : Change.Answer)

/-- Acts on the bridge. -/
def onBridge {α : Type} (x : ActOn Bridge α) : ActOn BridgeSession α :=
  x.within (·.bridge) fun s bridge => { s with bridge }

/-- Does what is asked of the bridge itself. -/
def asking {α : Type} (f : Bridge → Act α) : Step BridgeSession α :=
  Step.asClient do
    let s ← ActOn.current
    f s.bridge

/-- Does things with a handle, one after the other, and observes each. What fails does not keep the
rest from being done. -/
def readings {α : Type} (perform : α → Act Reading) :
    List (Timed α) → Act (List (Observed ClientError Reading))
  | [] => pure []
  | call :: rest => do
    let seen ← Act.observe <| match call with
      | .operation operation => perform operation
      | .advance d => do
        Act.wait d
        pure .nothing
    pure (seen :: (← readings perform rest))

/-- Gets a handle and does things with it. -/
def withHandle {η α : Type} (get : ActOn Bridge η) (perform : η → α → Act Reading)
    (calls : List (Timed α)) : Step BridgeSession Answer := do
  let handle ← onBridge get
  let seen ← readings (perform handle) calls
  pure (.readings seen)

/-- Keeps a cache under a name. -/
def keep (name : String) (c : Cache) : Step BridgeSession Answer := do
  Step.update fun s => { s with kept := s.kept.set name c }
  pure .nothing

/-- Keeps a change under a name; the answer is its path. -/
def keepChange (name : String) (c : Change) : Step BridgeSession Answer := do
  Step.update fun s => { s with changes := s.changes.set name c }
  pure (.text c.path)

/-- The change of a name. -/
def change (name : String) : Step BridgeSession Change := do
  Step.found .noChange ((← Step.here).changes.get? name)

/-- Pairs; that the link button was not pressed in time is an error. -/
def pair : Step BridgeSession Answer := do
  match ← Step.asClient (onBridge Bridge.pair) with
  | .user username => pure (.text username)
  | .timeout => throw (.client (.linkButtonTimeout (← Step.here).bridge.config.pairingTimeout))
  | .unfinished => throw .unending

/-- Carries out a command. -/
def perform : Command → Step BridgeSession Answer
  | .advance d => do
    Act.wait d
    pure .nothing
  | .prepare line => do
    Act.changeScript (← Step.here).bridge.transport (·.add line)
    pure .nothing
  | .info => do
    let b := (← Step.here).bridge
    let next ← Act.nextAllowed b.connection.channel.slot
    pure (.info b next)
  | .name => .text <$> asking (·.name)
  | .apiVersion => .text <$> asking (·.apiVersion)
  | .refresh => do
    asking (·.refresh)
    pure .nothing
  | .config => do
    pure (.config (← Step.here).bridge.config)
  | .onState operation => do
    let answer ← (← Step.here).bridge.connection.state.perform operation
    pure (.cache answer)
  | .setUsername username => do
    onBridge (Bridge.setUsername username)
    pure .nothing
  | .setTransport lines => do
    let latency ← Act.latency (← Step.here).bridge.transport
    let transport ← Act.addTransport (Script.ofLines latency lines)
    onBridge (Bridge.setTransport transport)
    pure .nothing
  | .pair => pair
  | .onSection which operation => do
    let answer ← onBridge (Bridge.onSection which (Bridge.performOn which operation))
    pure (.numbered answer)
  | .onScenes operation => do
    let answer ← onBridge (Bridge.onScenes (Collection.perform operation))
    pure (.scenes answer)
  | .sensorsOfKind kind => do
    let found ← Step.asClient (onBridge (Bridge.onSensors (Sensors.getAllOfKind kind)))
    pure (.ids (found.map (·.id)))
  | .withLight id calls => withHandle (Bridge.light id) Light.perform calls
  | .withGroup id calls => withHandle (Bridge.group id) Group.perform calls
  | .withSchedule id calls => withHandle (Bridge.schedule id) Schedule.perform calls
  | .withScene id calls => withHandle (Bridge.scene id) Scene.perform calls
  | .withSensor id calls => withHandle (Bridge.sensor id) Sensor.perform calls
  | .keepSection name which => do
    keep name ((← Step.here).bridge.sectionCache which)
  | .keepScenes name => do
    keep name (← Step.here).bridge.connection.scenes.cache
  | .keepEntry name which id => do
    let r ← onBridge (Bridge.entry which id)
    keep name r.cache
  | .keepScene name id => do
    let r ← onBridge (Bridge.onScenes (Collection.get id))
    keep name r.cache
  | .onKept name operation => do
    let c ← Step.found (.unknown name) ((← Step.here).kept.get? name)
    let answer ← c.perform operation
    pure (.cache answer)
  | .changeLight name id => do
    let light ← onBridge (Bridge.light id)
    let c ← Step.asClient (light.changeState.beside BridgeSession)
    keepChange name c
  | .changeGroup name id => do
    let group ← onBridge (Bridge.group id)
    let c ← Step.asClient (group.changeAction.beside BridgeSession)
    keepChange name c
  | .onChange name operation => do
    let c ← change name
    let (c, answer) := c.perform operation
    Step.update fun s => { s with changes := s.changes.set name c }
    pure (.change answer)
  | .commit name => do
    let c ← change name
    Step.update fun s => { s with changes := s.changes.erase name }
    let acknowledged ← c.commit
    pure (.flag acknowledged)

/-- Carries out a command and observes it. -/
def step (s : BridgeSession × World) (c : Command) :
    Observed SessionError Answer × (BridgeSession × World) :=
  (perform c).observe held s

/-- Carries out commands in order and observes each. -/
def run : BridgeSession × World → List Command → List (Observed SessionError Answer)
  | _, [] => []
  | s, c :: rest =>
    let (seen, s) := step s c
    seen :: run s rest

end BridgeSession

end LightBridge
