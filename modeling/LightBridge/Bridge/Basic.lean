import LightBridge.Config.Basic
import LightBridge.Resource.Group
import LightBridge.Resource.Light
import LightBridge.Resource.Operation
import LightBridge.Resource.Scene
import LightBridge.Resource.Schedule
import LightBridge.Resource.Sensor

/-!
Bridges.

A bridge has one channel and one cache of its whole state, and the collections of its lights, groups,
schedules, scenes and sensors read their parts of that state, so that one fetch serves them all.
When the user or the transport is switched, everything is made anew: the channel, the cache and the
collections.
-/

namespace LightBridge

/-- What a bridge is reached through: a channel, and everything that is read through it. -/
structure Connection where
  channel : Channel
  /-- The cache of the whole state. -/
  state : Cache
  lights : Collection Int32
  groups : Collection Int32
  schedules : Collection Int32
  scenes : Collection String
  sensors : Collection Int32

/-- Makes a connection for a configuration; nothing is fetched yet. -/
def Connection.establish (config : Config) (transport : TransportId) : Act Connection := do
  let channel ← Channel.connect config.address config.port config.username config.minDelay transport
  let state ← Cache.newRoot "" channel config.refreshInterval
  let lights ← Collection.below channel Light.collection state "lights"
  let groups ← Collection.below channel Group.collection state "groups"
  let schedules ← Collection.below channel Schedule.collection state "schedules"
  let scenes ← Collection.below channel Scene.collection state "scenes"
  let sensors ← Collection.below channel Sensor.collection state "sensors"
  pure { channel, state, lights, groups, schedules, scenes, sensors }

/-- A bridge. -/
structure Bridge where
  config : Config
  transport : TransportId
  connection : Connection

namespace Bridge

/-- A bridge with a configuration, reached over a transport. -/
def connect (config : Config) (transport : TransportId) : Act Bridge := do
  let connection ← Connection.establish config transport
  pure { config, transport, connection }

/-- Switches to another user. -/
def setUsername (username : String) : ActOn Bridge Unit := do
  let b ← ActOn.current
  ActOn.become (← connect (b.config.withUsername username) b.transport)

/-- Switches to another transport. -/
def setTransport (transport : TransportId) : ActOn Bridge Unit := do
  let b ← ActOn.current
  ActOn.become (← connect b.config transport)

/-- Fetches the whole state now. -/
def refresh (b : Bridge) : Act Unit := b.connection.state.refresh

/-- The text in a field of what the bridge reports about itself. -/
def aboutItself (b : Bridge) (key : String) : Act String := do
  let cache ← Cache.newChild b.connection.state "config"
  let about ← cache.value
  pure (about.textAt [key])

/-- The name of the bridge. -/
def name (b : Bridge) : Act String := b.aboutItself "name"

/-- The version of the interface that the bridge speaks. -/
def apiVersion (b : Bridge) : Act String := b.aboutItself "apiversion"

/-- A readable description. -/
def describe (b : Bridge) : String :=
  "Bridge \x7b address: " ++ Text.quote b.config.address ++ ", port: " ++
    Numeral.nat b.config.port.toNat ++ ", .. \x7d"

/-- The nodes that a bridge holds. -/
def held (b : Bridge) : List NodeId :=
  b.connection.state.node :: b.connection.lights.held ++ b.connection.groups.held ++
    b.connection.schedules.held ++ b.connection.scenes.held ++ b.connection.sensors.held

/-! ## Collections -/

/-- Acts on the lights. -/
def onLights {α : Type} (x : ActOn (Collection Int32) α) : ActOn Bridge α :=
  x.within (·.connection.lights) fun b l => { b with connection.lights := l }

/-- Acts on the groups. -/
def onGroups {α : Type} (x : ActOn (Collection Int32) α) : ActOn Bridge α :=
  x.within (·.connection.groups) fun b l => { b with connection.groups := l }

/-- Acts on the schedules. -/
def onSchedules {α : Type} (x : ActOn (Collection Int32) α) : ActOn Bridge α :=
  x.within (·.connection.schedules) fun b l => { b with connection.schedules := l }

/-- Acts on the scenes. -/
def onScenes {α : Type} (x : ActOn (Collection String) α) : ActOn Bridge α :=
  x.within (·.connection.scenes) fun b l => { b with connection.scenes := l }

/-- Acts on the sensors. -/
def onSensors {α : Type} (x : ActOn (Collection Int32) α) : ActOn Bridge α :=
  x.within (·.connection.sensors) fun b l => { b with connection.sensors := l }

/-- A handle of an entry. -/
def handleOf {ι : Type} (b : Bridge) (r : Resource ι) : Handle ι :=
  { id := r.id, cache := r.cache, channel := b.connection.channel }

/-- The handle of what an operation finds. -/
def handle {ι : Type} (find : ActOn Bridge (Resource ι)) : ActOn Bridge (Handle ι) := do
  let r ← find
  let b ← ActOn.current
  pure (b.handleOf r)

/-- A light. -/
def light (id : Int32) : ActOn Bridge Light := do
  pure { toHandle := ← handle (onLights (Collection.get id)) }

/-- A group. -/
def group (id : Int32) : ActOn Bridge Group := do
  pure { toHandle := ← handle (onGroups (Groups.get id)) }

/-- A schedule. -/
def schedule (id : Int32) : ActOn Bridge Schedule := do
  pure { toHandle := ← handle (onSchedules (Collection.get id)) }

/-- A scene. -/
def scene (id : String) : ActOn Bridge Scene := do
  pure { toHandle := ← handle (onScenes (Collection.get id)) }

/-- A sensor. -/
def sensor (id : Int32) : ActOn Bridge Sensor := do
  pure { toHandle := ← handle (onSensors (Collection.get id)) }

end Bridge

end LightBridge
