import LightBridge.Proofs.Handle.Play
import LightBridge.Session.BridgeSession
import LightBridge.Session.Workspace

/-!
# What the commands of a session are for

A command names the cache that it works on, by what the session has when it is given. It fetches a
root that is not stale only if it asks for that, and only the root of that cache; and each command
makes updates of one kind at most.
-/

namespace LightBridge

/-! ## Workspaces -/

namespace Registry

/-- The key of an id in the state of the collection. -/
def keyOf (l : Registry) (id : Key) : String :=
  match l with
  | numbered _ | groups _ => ResourceId.key id.toNumber
  | named _ => ResourceId.key id.toText

end Registry

namespace Workspace

/-- Whether a command fetches also what is not stale. -/
def Command.refetches : Command → Bool
  | .onCache _ operation => operation.refetches
  | .onList _ _ operation => operation.refetches
  | _ => false

/-- What a command reads from a bridge without a cache. -/
def Command.Asks (command : Command) (r : Request) : Prop :=
  ∃ via path body, command = .request via .get path body ∧
    ∃ c : Channel, r = c.compose .get path body

/-- The cache that a command works on, if it has one. -/
def Command.target? (s : Workspace) : Command → Option Cache
  | .onCache name _ | .update name _ _ => s.caches.get? name
  | .onList name _ _ => (s.lists.get? name).map (·.cache)
  | _ => none

/-- A command may update what the cache `c` stands for by `f`: by a value that is given, by taking
out the key of a resource that was removed, or by what a commit has sent. -/
def Command.Patches (s : Workspace) (command : Command) (c : Cache) (f : Json → Json) : Prop :=
  match command with
  | .update _ field value => command.target? s = some c ∧ f = assign field value
  | .onList name _ (.remove id) =>
    ∃ l, s.lists.get? name = some l ∧ c = l.cache ∧ f = Collection.without (l.keyOf id)
  | .commit name =>
    ∃ change body, s.changes.get? name = some change ∧ change.body? = some body ∧
      change.cache = some c ∧ f = Change.patchState body
  | _ => False

/-- What a command is for. -/
def task (s : Workspace × World) (command : Command) : Task where
  asked := command.Asks
  prepares := ∃ line, command = .prepare line
  refetches r := command.refetches = true ∧ ∃ c, command.target? s.1 = some c ∧ r = c.top
  patches := command.Patches s.1

/-- What a workspace and its world are after several commands. -/
def stateAfter (s : Workspace × World) (commands : List Command) : Workspace × World :=
  commands.foldl (fun s c => (step s c).2) s

end Workspace

/-! ## Bridges -/

namespace BridgeSession

/-- Whether an operation with a handle is one of those that `p` tells. -/
def Timed.is {α : Type} (p : α → Bool) : Timed α → Bool
  | .operation a => p a
  | .advance _ => false

/-- Whether a command fetches also what is not stale. -/
def Command.refetches : Command → Bool
  | .refresh => true
  | .onState operation | .onKept _ operation => operation.refetches
  | .onSection _ operation => operation.refetches
  | .onScenes operation => operation.refetches
  | .withLight _ calls => calls.any (Timed.is Light.Operation.refetches)
  | .withGroup _ calls => calls.any (Timed.is Group.Operation.refetches)
  | .withSchedule _ calls => calls.any (Timed.is Schedule.Operation.refetches)
  | .withScene _ calls => calls.any (Timed.is Scene.Operation.refetches)
  | .withSensor _ calls => calls.any (Timed.is Sensor.Operation.refetches)
  | _ => false

/-- What is got from the bridge of a session. -/
def got? {α : Type} (s : BridgeSession × World) (get : ActOn Bridge α) : Option α :=
  (outcome (onBridge get) s).toOption

/-- The cache that a command works on, if it has one; that of a handle is got with the handle. -/
def Command.target? (s : BridgeSession × World) : Command → Option Cache
  | .refresh | .onState _ => some s.1.bridge.connection.state
  | .onKept label _ => s.1.kept.get? label
  | .onSection which _ => some (s.1.bridge.sectionCache which)
  | .onScenes _ => some s.1.bridge.connection.scenes.cache
  | .withLight id _ => (got? s (Bridge.light id)).map (·.cache)
  | .withGroup id _ => (got? s (Bridge.group id)).map (·.cache)
  | .withSchedule id _ => (got? s (Bridge.schedule id)).map (·.cache)
  | .withScene id _ => (got? s (Bridge.scene id)).map (·.cache)
  | .withSensor id _ => (got? s (Bridge.sensor id)).map (·.cache)
  | _ => none

/-- A command may update what the cache `c` stands for by `f`: by taking out the key of a resource
that was removed, or by what a commit has sent, be it one of its own for the state of a light. -/
def Command.Patches (s : BridgeSession × World) (command : Command) (c : Cache) (f : Json → Json) :
    Prop :=
  match command with
  | .onSection _ (.remove id) =>
    command.target? s = some c ∧ f = Collection.without (ResourceId.key id)
  | .onScenes (.remove id) =>
    command.target? s = some c ∧ f = Collection.without (ResourceId.key id)
  | .withLight _ calls =>
    calls.any (Timed.is Light.Operation.patches) = true ∧ ∃ light node body,
      command.target? s = some light ∧ c = .child light node "state" ∧ f = Change.patchState body
  | .commit label =>
    ∃ change body, s.1.changes.get? label = some change ∧ change.body? = some body ∧
      change.cache = some c ∧ f = Change.patchState body
  | _ => False

/-- What a command is for. No bridge is read from but by way of a cache. -/
def task (s : BridgeSession × World) (command : Command) : Task where
  asked _ := False
  prepares := ∃ line, command = .prepare line
  refetches r := command.refetches = true ∧ ∃ c, command.target? s = some c ∧ r = c.top
  patches := command.Patches s

end BridgeSession

end LightBridge
