import LightBridge.Cache
import LightBridge.Resource.Id

/-!
Collections of resources.

A bridge reports the lights, groups and so on that it knows as one object with a field for every
resource. A collection reads that object through a cache and keeps an entry for every resource that
somebody has asked for, with a cache of its own below the collection's. Entries are ordered by id.
Entries of resources that the bridge no longer reports are dropped, except the pinned ones, which
stand for resources that a bridge never reports.
-/

namespace LightBridge

/-- An entry: the id of a resource, the part of the state that it was made from, and its cache. -/
structure Resource (ι : Type) where
  id : ι
  slice : Json
  cache : Cache

/-- A collection of resources. -/
structure Collection (ι : Type) where
  channel : Channel
  cache : Cache
  path : String
  entries : List (Resource ι)
  pinned : List ι

namespace ActOn

/-- The value that the operation acts on. -/
def current {σ : Type} : ActOn σ σ := fun (s, w) => .ok s (s, w)

/-- Replaces the value that the operation acts on. -/
def become {σ : Type} (s : σ) : ActOn σ Unit := fun (_, w) => .ok () (s, w)

end ActOn

namespace Collection

variable {ι : Type} [DecidableEq ι] [ResourceId ι]

/-- A collection without entries, read through the given cache. -/
def ofCache (channel : Channel) (path : String) (cache : Cache) : Collection ι :=
  { channel, cache, path, entries := [], pinned := [] }

/-- A collection with a root cache of its own. -/
def withOwnRoot (channel : Channel) (path : String) (interval : Duration) :
    Act (Collection ι) := do
  pure (ofCache channel path (← Cache.newRoot path channel interval))

/-- A collection that reads a field of another cache. -/
def below (channel : Channel) (path : String) (parent : Cache) (key : String) :
    Act (Collection ι) := do
  pure (ofCache channel path (← Cache.newChild parent key))

/-- The entry of an id. -/
def entry? (l : Collection ι) (id : ι) : Option (Resource ι) :=
  l.entries.find? fun r => r.id = id

/-- Whether an id has an entry. -/
def isMaterialized (l : Collection ι) (id : ι) : Bool := (l.entry? id).isSome

/-- Whether the entry of an id is kept whatever the bridge reports. -/
def isPinned (l : Collection ι) (id : ι) : Bool := l.pinned.any fun p => p = id

/-- The path of a resource. -/
def entryPath (l : Collection ι) (id : ι) : String :=
  Text.trimSlashes l.path ++ "/" ++ ResourceId.key id

/-- The entries with one more, in its place in the order of ids. -/
def insertEntry (r : Resource ι) : List (Resource ι) → List (Resource ι)
  | [] => [r]
  | e :: rest => if ResourceId.before r.id e.id then r :: e :: rest else e :: insertEntry r rest

/-- The collection without the entry of an id. -/
def drop (l : Collection ι) (id : ι) : Collection ι :=
  { l with entries := l.entries.filter fun r => r.id ≠ id }

/-- The collection with the entry of a resource that has none yet. -/
def add (l : Collection ι) (r : Resource ι) : Collection ι :=
  { l with entries := insertEntry r l.entries }

/-- The collection without the entries that `fields` no longer reports, pinned ones apart. -/
def retain (l : Collection ι) (fields : Fields) : Collection ι :=
  { l with entries := l.entries.filter fun r =>
      l.isPinned r.id || Fields.has fields (ResourceId.key r.id) }

/-- Makes the entry of an id from the field `key` of the collection. -/
def materialize (l : Collection ι) (id : ι) (key : String) (slice : Json) :
    Act (Collection ι × Resource ι) := do
  let cache ← Cache.newChild l.cache key
  let r : Resource ι := { id, slice, cache }
  pure (l.add r, r)

/-- Makes the entries of all fields whose key denotes an id without one. -/
def materializeAll (l : Collection ι) : Fields → Act (Collection ι)
  | [] => pure l
  | (key, slice) :: rest =>
    match ResourceId.ofKey? key with
    | none => l.materializeAll rest
    | some id =>
      if l.isMaterialized id then l.materializeAll rest
      else do
        let (l, _) ← l.materialize id key slice
        l.materializeAll rest

/-- The fields of the collection's state, fetched when stale. -/
def reported (l : Collection ι) : Act Fields := do
  match ← l.cache.value with
  | .object fields => pure fields
  | _ => throw (.malformed (.noObject l.cache.path))

/-- Everything that the bridge reports now, and the pinned resources, in the order of ids. -/
def getAll : ActOn (Collection ι) (List (Resource ι)) := do
  let l ← ActOn.current
  let fields ← l.reported
  let l ← (l.retain fields).materializeAll fields
  ActOn.become l
  pure l.entries

/-- Reads the state of an entry again. When the bridge no longer reports it, the entry is dropped
unless it is pinned; any other failure leaves the entries alone. -/
def reread (r : Resource ι) : ActOn (Collection ι) (Resource ι) := fun (l, w) =>
  match r.cache.value w with
  | .ok _ w => .ok r (l, w)
  | .error (.notFound path) w =>
    .error (.notFound path) (if l.isPinned r.id then l else l.drop r.id, w)
  | .error e w => .error e (l, w)

/-- The entry of an id, made from the state of the collection when there is none. -/
def get (id : ι) : ActOn (Collection ι) (Resource ι) := do
  let l ← ActOn.current
  match l.entry? id with
  | some r => reread r
  | none =>
    let state ← l.cache.value
    match state.get? (ResourceId.key id) with
    | none => throw (.notFound (l.entryPath id))
    | some slice =>
      let (l, r) ← l.materialize id (ResourceId.key id) slice
      ActOn.become l
      pure r

/-- Whether the bridge reports an id, fetching when stale. -/
def exists? (l : Collection ι) (id : ι) : Act Bool :=
  if l.isPinned id then pure true
  else do
    let state ← l.cache.value
    pure (state.get? (ResourceId.key id)).isSome

/-- Whether an id is known without asking the bridge: it has an entry or is in the state held. -/
def existsCached? (l : Collection ι) (id : ι) : Act Bool :=
  if l.isPinned id || l.isMaterialized id then pure true
  else do
    let state ← l.cache.peek
    pure (state.get? (ResourceId.key id)).isSome

/-- The state of a collection without a key. -/
def without (key : String) : Json → Json
  | .object fields => .object (Fields.remove fields key)
  | v => v

/-- Takes a key out of the state held; that there is no such state is no failure. -/
def evict (l : Collection ι) (key : String) : Act Unit := fun w =>
  match l.cache.patch (without key) w with
  | .error (.cacheEmpty _) w | .error (.notFound _) w => .ok () w
  | result => result

/-- Deletes a resource on the bridge. Only when the bridge confirms it is the resource forgotten
here as well. -/
def remove (id : ι) : ActOn (Collection ι) Bool := do
  let l ← ActOn.current
  let path := l.entryPath id
  let reply ← l.channel.request .delete path (.object [])
  if Reply.confirmsDeletion reply path then
    ActOn.become { l.drop id with pinned := l.pinned.filter fun p => p ≠ id }
    l.evict (ResourceId.key id)
    pure true
  else pure false

/-- A creation token without the path of the collection in front. -/
def bareToken (path : String) : Json → Json
  | .string s => .string ((Text.after? (Text.trimSlashes path ++ "/") s).getD s)
  | token => token

/-- Creates a resource and reads the state again. The id is the missing one when the reply holds
none that can be used. -/
def create (l : Collection ι) (parameters : Json) : Act ι := do
  let reply ← l.channel.request .post l.path parameters
  Act.ofExcept (Reply.check reply)
  match (Reply.createdToken? reply).bind fun token => ResourceId.ofToken? (bareToken l.path token) with
  | some id => do
    l.cache.refresh
    pure id
  | none => pure ResourceId.missing

/-- The nodes that a collection holds: its own and those of its entries. -/
def held {ι : Type} (l : Collection ι) : List NodeId :=
  l.cache.node :: l.entries.map (·.cache.node)

/-- A readable description. -/
def describe (l : Collection ι) : String :=
  "ResourceList \x7b path: " ++ Text.quote l.path ++ ", materialized: [" ++
    String.intercalate ", " (l.entries.map fun r => ResourceId.label r.id) ++ "], .. \x7d"

end Collection

end LightBridge
