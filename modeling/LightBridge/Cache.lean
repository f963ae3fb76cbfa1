import LightBridge.Channel

/-!
State caches.

A root fetches one path of a bridge and holds the reply until its interval has passed. A child is a
view onto one field of the cache above it: it reads through that cache, and patches through it. A
child does not keep the cache above it alive; when nobody else holds that cache any more, the child
is detached and every operation on it fails.
-/

namespace LightBridge

/-- A handle of a cache node. Two handles of one node are equal. -/
inductive Cache where
  | root (node : NodeId) (path : String) (channel : Channel) (interval : Duration)
  | child (parent : Cache) (node : NodeId) (key : String)
deriving DecidableEq, Repr

namespace Cache

/-- The node that the handle is of. -/
def node : Cache → NodeId
  | .root node .. => node
  | .child _ node _ => node

/-- The path of the state that the cache stands for. -/
def path : Cache → String
  | .root _ path .. => path
  | .child parent _ key => Text.trimSlashes parent.path ++ "/" ++ key

/-- Whether the cache fetches for itself. -/
def isRoot : Cache → Bool
  | .root .. => true
  | .child .. => false

/-- The node of the root that the cache reads from. -/
def rootNode : Cache → NodeId
  | .root node .. => node
  | .child parent .. => parent.rootNode

/-- The field names that lead from the root to the cache. -/
def keys : Cache → List String
  | .root .. => []
  | .child parent _ key => parent.keys ++ [key]

/-- The nodes above the cache, the nearest first. -/
def above : Cache → List NodeId
  | .root .. => []
  | .child parent .. => parent.node :: parent.above

/-- Makes a root that has fetched nothing yet. -/
def newRoot (path : String) (channel : Channel) (interval : Duration) : Act Cache := do
  let node ← Act.freshName
  modify fun w => { w with held := node :: w.held }
  pure (.root node path channel interval)

/-- Makes a view onto a field. -/
def newChild (parent : Cache) (key : String) : Act Cache := do
  let node ← Act.freshName
  modify fun w => { w with held := node :: w.held }
  pure (.child parent node key)

/-- Fails when nobody holds `parent`, the cache above the one with the given path. -/
def requireHeld (parent : Cache) (path : String) : Act Unit := fun w =>
  if w.holds parent.node then .ok () w else .error (.detached path) w

/-- Fetches the state of a root and holds it; a reply with a refusal is not held. -/
def fetch (node : NodeId) (path : String) (channel : Channel) : Act Unit := do
  let reply ← channel.request .get path (.object [])
  Act.ofExcept (Reply.check reply)
  modify fun w => { w with snapshots := w.snapshots.set node ⟨reply, w.now⟩ }

/-- Whether a snapshot is no longer served at an instant. With an interval of zero that is always;
a deadline that no instant reaches never passes. -/
def isStale (interval : Duration) (snapshot : Option Snapshot) (now : Instant) : Bool :=
  match snapshot with
  | none => true
  | some s =>
    if interval = .millis 0 then true
    else
      match interval.after? s.fetchedAt with
      | some deadline => deadline ≤ now
      | none => false

/-- What a root holds. -/
def rootValue (node : NodeId) (path : String) : Act Json := fun w =>
  match w.snapshots.get? node with
  | some s => .ok s.value w
  | none => .error (.cacheEmpty path) w

/-- The field of a value that a child with the given path stands for. -/
def field (path key : String) (v : Json) : Except Fault Json :=
  match v.get? key with
  | some value => .ok value
  | none => .error (.notFound path)

/-- Fetches the state that the cache reads from now. -/
def refresh : Cache → Act Unit
  | .root node path channel _ => fetch node path channel
  | c@(.child parent _ _) => do
    requireHeld parent c.path
    parent.refresh

/-- Whether the next read will fetch. -/
def needsRefresh : Cache → Act Bool
  | .root node _ _ interval => fun w => .ok (isStale interval (w.snapshots.get? node) w.now) w
  | c@(.child parent _ _) => do
    requireHeld parent c.path
    parent.needsRefresh

/-- The present value, fetched first when there is none or it is stale. -/
def value : Cache → Act Json
  | .root node path channel interval => do
    let stale ← needsRefresh (.root node path channel interval)
    if stale then fetch node path channel
    rootValue node path
  | c@(.child parent _ key) => do
    requireHeld parent c.path
    let v ← parent.value
    Act.ofExcept (field c.path key v)

/-- The value held, without fetching. -/
def peek : Cache → Act Json
  | .root node path _ _ => rootValue node path
  | c@(.child parent _ key) => do
    requireHeld parent c.path
    let v ← parent.peek
    Act.ofExcept (field c.path key v)

/-- How long a fetched state is served. -/
def interval : Cache → Act Duration
  | .root _ _ _ interval => pure interval
  | c@(.child parent _ _) => do
    requireHeld parent c.path
    parent.interval

/-- The instant at which the state that is held had arrived. -/
def fetchedAt : Cache → Act (Option Instant)
  | .root node _ _ _ => fun w => .ok ((w.snapshots.get? node).map (·.fetchedAt)) w
  | c@(.child parent _ _) => do
    requireHeld parent c.path
    parent.fetchedAt

/-- The channel that the state is fetched through. -/
def channel : Cache → Act Channel
  | .root _ _ channel _ => pure channel
  | c@(.child parent _ _) => do
    requireHeld parent c.path
    parent.channel

/-- A change of one field as a change of the value around it. -/
def onField (path key : String) (f : Json → Except Fault Json) (v : Json) : Except Fault Json :=
  match v with
  | .object fields =>
    match Fields.value? fields key with
    | some value => (f value).map fun value => .object (Fields.put fields key value)
    | none => .error (.notFound path)
  | _ => .error (.notFound path)

/-- Changes what a root holds; a change that fails leaves it as it was. -/
def patchRoot (node : NodeId) (path : String) (f : Json → Except Fault Json) : Act Unit := fun w =>
  match w.snapshots.get? node with
  | none => .error (.cacheEmpty path) w
  | some s =>
    match f s.value with
    | .ok value => .ok () { w with snapshots := w.snapshots.set node { s with value } }
    | .error e => .error e w

/-- Changes the value held by a change that may fail. -/
def patchWith : Cache → (Json → Except Fault Json) → Act Unit
  | .root node path _ _, f => patchRoot node path f
  | c@(.child parent _ key), f => do
    requireHeld parent c.path
    parent.patchWith (onField c.path key f)

/-- Changes the value held, without contacting the bridge. -/
def patch (c : Cache) (f : Json → Json) : Act Unit := c.patchWith fun v => .ok (f v)

/-- A readable description. -/
def describe (c : Cache) : String :=
  "ApiCache \x7b path: " ++ Text.quote c.path ++ ", root: " ++
    (if c.isRoot then "true" else "false") ++ " \x7d"

end Cache

end LightBridge
