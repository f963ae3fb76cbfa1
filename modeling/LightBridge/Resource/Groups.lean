import LightBridge.Resource.Collection

/-!
The collection of groups.

Group 0 holds every light. A bridge serves it but never reports it among its groups, so it has a
root cache of its own, its entry is pinned, and it always exists.
-/

namespace LightBridge.Groups

/-- The group that holds every light. -/
def allLights : Int32 := 0

/-- Makes the entry of group 0, once its state could be fetched. -/
def materializeAllLights (l : Collection Int32) : Act (Collection Int32 × Resource Int32) := do
  let interval ← l.cache.interval
  let cache ← Cache.newRoot (l.entryPath allLights) l.channel interval
  let slice ← cache.value
  let r : Resource Int32 := { id := allLights, slice, cache }
  pure ({ l.add r with pinned := allLights :: l.pinned }, r)

/-- The entry of a group. -/
def get (id : Int32) : ActOn (Collection Int32) (Resource Int32) := do
  if id = allLights then
    let l ← ActOn.current
    match l.entry? id with
    | some r =>
      let _ ← r.cache.value
      pure r
    | none =>
      let (l, r) ← materializeAllLights l
      ActOn.become l
      pure r
  else Collection.get id

/-- Whether the bridge has a group. -/
def exists? (l : Collection Int32) (id : Int32) : Act Bool :=
  if id = allLights then pure true else l.exists? id

/-- Whether a group is known without asking the bridge. -/
def existsCached? (l : Collection Int32) (id : Int32) : Act Bool :=
  if id = allLights then pure true else l.existsCached? id

end LightBridge.Groups
