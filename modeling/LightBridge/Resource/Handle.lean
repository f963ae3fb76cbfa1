import LightBridge.Change.Pending
import LightBridge.Resource.LightIds

/-!
Handles of single resources.

A handle reads from the cache of its resource: each reading takes the present state, fetched first
when it is stale, and what is missing there or has another kind reads as a default. Writing an
attribute sends it to the bridge; once everything is acknowledged, the cache is fetched again, so
that later readings show what was written.
-/

namespace LightBridge

/-- A handle of a resource. -/
structure Handle (ι : Type) where
  id : ι
  cache : Cache
  channel : Channel

/-- What reading or writing a resource answers. -/
inductive Reading where
  | nothing
  | flag (value : Bool)
  | integer (value : Int)
  | text (value : String)
  | ids (ids : List Int32)
  | state (value : Json)

namespace Reading

/-- A text that may be missing. -/
def ofText? : Option String → Reading
  | some s => .text s
  | none => .nothing

/-- A byte that may be missing. -/
def ofByte? : Option UInt8 → Reading
  | some n => .integer n.toNat
  | none => .nothing

/-- An id that may be missing. -/
def ofId? : Option Int32 → Reading
  | some id => .integer id.toInt
  | none => .nothing

end Reading

namespace Handle

variable {ι : Type}

/-- What a function shows of the present state. -/
def look {α : Type} (h : Handle ι) (f : Json → α) : Act α := f <$> h.cache.value

/-- The text at a place in the state, or the empty text. -/
def textAt (h : Handle ι) (path : List String) : Act String := h.look (·.textAt path)

/-- The text at a place in the state, if there is one. -/
def textAt? (h : Handle ι) (path : List String) : Act (Option String) :=
  h.look fun v => (v.at? path).bind Json.string?

/-- The truth value at a place in the state, or false. -/
def flagAt (h : Handle ι) (path : List String) : Act Bool := h.look (·.flagAt path)

/-- A whole number as a byte, when it fits. -/
def byte? (v : Json) : Option UInt8 :=
  v.nat64?.bind fun n => if n < 256 then some (UInt8.ofNat n) else none

/-- The byte at a place in the state, if there is one. -/
def byteAt? (h : Handle ι) (path : List String) : Act (Option UInt8) :=
  h.look fun v => (v.at? path).bind byte?

/-- The light ids at a place in the state. -/
def idsAt (h : Handle ι) (path : List String) : Act (List Int32) :=
  h.look fun v => LightIds.reportedAt v path

/-- Fetches the state that the resource is read from. -/
def refresh (h : Handle ι) : Act Unit := h.cache.refresh

/-- Writes attributes at a path, and fetches the state again once all are acknowledged. -/
def write (h : Handle ι) (path : String) (fields : Fields) : Act Bool := do
  let acknowledged ← h.channel.write path fields
  if acknowledged then h.cache.refresh
  pure acknowledged

/-- Starts a change of the state object in the field `key`, which is written to `path`. -/
def change (h : Handle ι) (key path : String) : Act Change := do
  let cache ← Cache.newChild h.cache key
  let baseline ← cache.value
  pure (Change.start h.channel path baseline (some cache))

end Handle

end LightBridge
