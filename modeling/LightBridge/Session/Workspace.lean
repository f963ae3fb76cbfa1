import LightBridge.Cache.Operation
import LightBridge.Change.Operation
import LightBridge.Resource.Operation
import LightBridge.Session.Step

/-!
Sessions with single channels, caches, collections and changes.

A workspace keeps things under names, and a command makes, uses or drops one. Dropping matters: a
cache whose upper cache nobody holds any more is detached.
-/

namespace LightBridge

/-- An id as it is given in a command. -/
inductive Key where
  | number (n : Int32)
  | text (s : String)
  | missing
deriving DecidableEq, Repr

/-- The id of a numbered resource; a key that is none counts as the missing id. -/
def Key.toNumber : Key → Int32
  | .number n => n
  | _ => ResourceId.missing

/-- The id of a named resource; a key that is none counts as the missing id. -/
def Key.toText : Key → String
  | .text s => s
  | _ => ResourceId.missing

/-- A collection of one of three kinds. -/
inductive Registry where
  | numbered (l : Collection Int32)
  | named (l : Collection String)
  | groups (l : Collection Int32)

namespace Registry

/-- The kinds of collections. -/
inductive Kind where
  | numbered
  | named
  | groups
deriving DecidableEq, Repr

/-- What a collection of one of the kinds answers. -/
inductive Answer where
  | numbered (answer : Collection.Answer Int32)
  | named (answer : Collection.Answer String)

/-- The cache of the collection. -/
def cache : Registry → Cache
  | numbered l | groups l => l.cache
  | named l => l.cache

/-- The nodes that the collection holds. -/
def held : Registry → List NodeId
  | numbered l | groups l => l.held
  | named l => l.held

/-- The result of an operation, with what it left behind made into something else. -/
def rebuild {σ τ α : Type} (make : σ → τ) :
    EStateM.Result Fault (σ × World) α → EStateM.Result Fault (τ × World) α
  | .ok a (s, w) => .ok a (make s, w)
  | .error e (s, w) => .error e (make s, w)

/-- Does what is asked; `plain` treats groups like any other collection. -/
def perform (plain : Bool) (operation : Collection.Operation Key) : ActOn Registry Answer
  | (numbered l, w) =>
    rebuild numbered ((.numbered <$> Collection.perform (operation.map Key.toNumber)) (l, w))
  | (named l, w) =>
    rebuild named ((.named <$> Collection.perform (operation.map Key.toText)) (l, w))
  | (groups l, w) =>
    let operation := operation.map Key.toNumber
    rebuild groups
      ((.numbered <$> if plain then Collection.perform operation else Groups.perform operation)
        (l, w))

/-- The cache of an entry. -/
def entryCache (id : Key) : ActOn Registry Cache
  | (numbered l, w) => rebuild numbered (((·.cache) <$> Collection.get id.toNumber) (l, w))
  | (named l, w) => rebuild named (((·.cache) <$> Collection.get id.toText) (l, w))
  | (groups l, w) => rebuild groups (((·.cache) <$> Groups.get id.toNumber) (l, w))

end Registry

/-- The things of a session, by name. -/
structure Workspace where
  transport : TransportId
  channels : Table String Channel
  caches : Table String Cache
  lists : Table String Registry
  changes : Table String Change

namespace Workspace

/-- The name of the channel that is there from the start. -/
def mainChannel : String := "main"

/-- A workspace with a transport and one channel over it. -/
def start (address : String) (port : UInt16) (username : String) (minDelay : Duration)
    (script : Script) : Act Workspace := do
  let transport ← Act.addTransport script
  let channel ← Channel.connect address port username minDelay transport
  pure
    { transport, channels := Table.empty.set mainChannel channel, caches := .empty, lists := .empty
      changes := .empty }

/-- The nodes that are held. -/
def held (s : Workspace) : List NodeId :=
  s.caches.values.map (·.node) ++ s.lists.values.flatMap (·.held) ++
    s.changes.values.filterMap fun c => c.cache.map (·.node)

/-- Where a new collection reads from: a root of its own, or a field of a cache. -/
inductive Source where
  | ownRoot (interval : Duration)
  | below (parent key : String)

/-- A command; `via` names the channel to use. -/
inductive Command where
  | advance (d : Duration)
  | prepare (line : Script.Line)
  | request (via : String) (method : Method) (path : String) (body : Json)
  | newChannel (name via : String) (username : Option String)
  | uri (via path : String)
  | channelInfo (via : String)
  | newRoot (name via path : String) (interval : Duration)
  | newChild (name parent key : String)
  | share (name cache : String)
  | listCache (name list : String)
  | entryCache (name list : String) (id : Key)
  | onCache (cache : String) (operation : Cache.Operation)
  | update (cache : String) (field : Option String) (value : Json)
  | dropCache (name : String)
  | dropList (name : String)
  | dropChange (name : String)
  | newList (name via : String) (kind : Registry.Kind) (path : String) (source : Source)
  | onList (list : String) (plain : Bool) (operation : Collection.Operation Key)
  | newChange (name via path : String) (cache : Option String) (baseline : Option Json)
  | onChange (change : String) (operation : Change.Operation)
  | commit (change : String)

/-- What a command answers. -/
inductive Answer where
  | nothing
  | flag (value : Bool)
  | text (value : String)
  | state (value : Json)
  | channel (channel : Channel) (nextAllowed : Instant)
  | cache (answer : Cache.Answer)
  | list (answer : Registry.Answer)
  | change (answer : Change.Answer)

/-- The channel of a name. -/
def channel (name : String) : Step Workspace Channel := do
  Step.found (.unknown name) ((← Step.here).channels.get? name)

/-- The cache of a name. -/
def cache (name : String) : Step Workspace Cache := do
  Step.found (.unknown name) ((← Step.here).caches.get? name)

/-- The collection of a name. -/
def list (name : String) : Step Workspace Registry := do
  Step.found (.unknown name) ((← Step.here).lists.get? name)

/-- The change of a name. -/
def change (name : String) : Step Workspace Change := do
  Step.found .noChange ((← Step.here).changes.get? name)

/-- Keeps a cache under a name, in the place of what had the name before. -/
def keepCache (name : String) (c : Cache) : Step Workspace Unit :=
  Step.update fun s => { s with caches := s.caches.set name c }

/-- Keeps a change under a name. -/
def keepChange (name : String) (c : Change) : Step Workspace Unit :=
  Step.update fun s => { s with changes := s.changes.set name c }

/-- Acts on the collection of a name. -/
def onList {α : Type} (name : String) (x : ActOn Registry α) : Step Workspace α := fun (s, w) =>
  match s.lists.get? name with
  | none => .error (.unknown name) (s, w)
  | some l =>
    match x (l, w) with
    | .ok a (l, w) => .ok a ({ s with lists := s.lists.set name l }, w)
    | .error e (l, w) => .error (.fault e) ({ s with lists := s.lists.set name l }, w)

/-- A new collection without entries. -/
def makeList {ι : Type} [DecidableEq ι] [ResourceId ι] (channel : Channel) (path : String)
    (source : Source) : Step Workspace (Collection ι) :=
  match source with
  | .ownRoot interval => liftM (Collection.withOwnRoot channel path interval)
  | .below parent key => do
    let parent ← cache parent
    liftM (Collection.below channel path parent key)

/-- A change of a value: of one of its fields if it is an object, or of the whole. -/
def assign (field : Option String) (value : Json) (v : Json) : Json :=
  match field, v with
  | none, _ => value
  | some key, .object fields => .object (Fields.put fields key value)
  | some _, v => v

/-- The state that a new change starts from: the given one, or else the value of its cache. -/
def baselineOf (cache : Option Cache) (baseline : Option Json) : Act Json :=
  match baseline, cache with
  | some v, _ => pure v
  | none, some c => c.value
  | none, none => pure .null

/-- Carries out a command. -/
def perform : Command → Step Workspace Answer
  | .advance d => do
    Act.wait d
    pure .nothing
  | .prepare line => do
    Act.changeScript (← Step.here).transport (·.add line)
    pure .nothing
  | .request via method path body => do
    let c ← channel via
    let reply ← c.request method path body
    pure (.state reply)
  | .newChannel name via username => do
    let c ← channel via
    let c := (username.map c.asUser).getD c
    Step.update fun s => { s with channels := s.channels.set name c }
    pure .nothing
  | .uri via path => do
    let c ← channel via
    pure (.text (c.uri path))
  | .channelInfo via => do
    let c ← channel via
    let next ← Act.nextAllowed c.slot
    pure (.channel c next)
  | .newRoot name via path interval => do
    let c ← channel via
    keepCache name (← Cache.newRoot path c interval)
    pure .nothing
  | .newChild name parent key => do
    let parent ← cache parent
    let c ← Cache.newChild parent key
    keepCache name c
    pure (.text c.path)
  | .share name other => do
    keepCache name (← cache other)
    pure .nothing
  | .listCache name other => do
    keepCache name (← list other).cache
    pure .nothing
  | .entryCache name other id => do
    let c ← onList other (Registry.entryCache id)
    keepCache name c
    pure (.text c.path)
  | .onCache name operation => do
    let c ← cache name
    let answer ← c.perform operation
    pure (.cache answer)
  | .update name field value => do
    let c ← cache name
    c.patch (assign field value)
    pure .nothing
  | .dropCache name => do
    let existed := (← Step.here).caches.has name
    Step.update fun s => { s with caches := s.caches.erase name }
    pure (.flag existed)
  | .dropList name => do
    let existed := (← Step.here).lists.has name
    Step.update fun s => { s with lists := s.lists.erase name }
    pure (.flag existed)
  | .dropChange name => do
    let existed := (← Step.here).changes.has name
    Step.update fun s => { s with changes := s.changes.erase name }
    pure (.flag existed)
  | .newList name via kind path source => do
    let c ← channel via
    let l ← match kind with
      | .numbered => .numbered <$> makeList c path source
      | .named => .named <$> makeList c path source
      | .groups => .groups <$> makeList c path source
    Step.update fun s => { s with lists := s.lists.set name l }
    pure .nothing
  | .onList name plain operation => do
    let answer ← onList name (Registry.perform plain operation)
    pure (.list answer)
  | .newChange name via path cacheName baseline => do
    let c ← channel via
    let cache ← match cacheName with
      | some other => some <$> cache other
      | none => pure none
    let baseline ← baselineOf cache baseline
    keepChange name (.start c path baseline cache)
    pure .nothing
  | .onChange name operation => do
    let c ← change name
    let (c, answer) := c.perform operation
    keepChange name c
    pure (.change answer)
  | .commit name => do
    let c ← change name
    Step.update fun s => { s with changes := s.changes.erase name }
    let acknowledged ← c.commit
    pure (.flag acknowledged)

/-- Carries out a command and observes it. -/
def step (s : Workspace × World) (c : Command) : Observed SessionError Answer × (Workspace × World) :=
  (perform c).observe held s

/-- Carries out commands in order and observes each. -/
def run : Workspace × World → List Command → List (Observed SessionError Answer)
  | _, [] => []
  | s, c :: rest =>
    let (seen, s) := step s c
    seen :: run s rest

end Workspace

end LightBridge
