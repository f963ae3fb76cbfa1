import LightBridge.Reply
import LightBridge.Wire.Request

/-!
What can go wrong when the state of a bridge is read or written.

Each cause is a case of its own; the wording is in one place.
-/

namespace LightBridge

/-- Why a reply, or a value taken from one, does not have the expected shape. -/
inductive Malformation where
  | emptyBody
  | notJson
  | noReplyArray (path : String) (reply : Json)
  | noObject (path : String)
  | noMethod (command : Json)
  | noUsername (reply : Json)

namespace Malformation

/-- A readable account. -/
def message : Malformation → String
  | .emptyBody => "empty reply body"
  | .notJson => "<invalid json>"
  | .noReplyArray path reply =>
    "expected reply array for PUT " ++ path ++ ", got " ++ reply.text
  | .noObject path => path ++ " is not an object"
  | .noMethod command => "schedule command without valid method: " ++ command.text
  | .noUsername reply => "pairing reply without username: " ++ reply.text

end Malformation

/-- Why an operation on the state of a bridge failed. -/
inductive Fault where
  /-- The exchange failed, after one more attempt when it was transient. -/
  | transport (failure : Failure)
  /-- The bridge refused. -/
  | refused (refusal : Refusal)
  /-- Nothing has been fetched yet for a read that may not fetch. -/
  | cacheEmpty (path : String)
  /-- An id or key is not in the cached state. -/
  | notFound (path : String)
  /-- A reply lacks the expected shape. -/
  | malformed (cause : Malformation)
  /-- A cache was used after the cache above it was given up. -/
  | detached (path : String)
  /-- An endless duration was added to an instant. -/
  | timeOverflow

namespace Fault

/-- A readable account. -/
def message : Fault → String
  | .transport failure => "Transport error: " ++ failure.message
  | .refused r =>
    "Bridge error " ++ Numeral.int r.code ++ " at '" ++ r.address ++ "': " ++ r.description
  | .cacheEmpty path => "No cached value for '" ++ path ++ "'"
  | .notFound path => "Resource not found: " ++ path
  | .malformed cause => "Malformed reply: " ++ cause.message
  | .detached path => "Cache '" ++ path ++ "' outlived its parent"
  | .timeOverflow => "overflow when adding duration to instant"

/-- The code of a refusal. -/
def code? : Fault → Option Int
  | .refused r => some r.code
  | _ => none

end Fault

end LightBridge
