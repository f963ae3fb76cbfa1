import LightBridge.Cache

/-!
What can be asked of a cache.
-/

namespace LightBridge.Cache

/-- A question to a cache, or a request to it. -/
inductive Operation where
  | value
  | peek
  | refresh
  | needsRefresh
  | path
  | isRoot
  | interval
  | fetchedAt
  | username
  | describe
deriving DecidableEq, Repr

/-- What a cache answers. -/
inductive Answer where
  | nothing
  | flag (value : Bool)
  | text (value : String)
  | state (value : Json)
  | duration (d : Duration)
  | instant (t : Option Instant)

/-- Does what is asked. -/
def perform (c : Cache) : Operation → Act Answer
  | .value => .state <$> c.value
  | .peek => .state <$> c.peek
  | .refresh => do c.refresh; pure .nothing
  | .needsRefresh => .flag <$> c.needsRefresh
  | .path => pure (.text c.path)
  | .isRoot => pure (.flag c.isRoot)
  | .interval => .duration <$> c.interval
  | .fetchedAt => .instant <$> c.fetchedAt
  | .username => (fun channel => .text channel.username) <$> c.channel
  | .describe => pure (.text c.describe)

end LightBridge.Cache
