import LightBridge.Text.Numeral
import LightBridge.Time

/-!
Requests to a bridge and the ways in which they fail.

A request is a method, a full address and a body. A failure is transient when the same request may
be sent once more: the connection was reset or aborted, or it timed out.
-/

namespace LightBridge

/-- The methods that a bridge understands. -/
inductive Method where
  | get
  | put
  | post
  | delete
deriving DecidableEq, Repr, Inhabited

namespace Method

/-- The name on the wire. -/
def name : Method → String
  | .get => "GET"
  | .put => "PUT"
  | .post => "POST"
  | .delete => "DELETE"

/-- The method with a name in any mixture of upper and lower case. -/
def ofName? (name : String) : Option Method :=
  [get, put, post, delete].find? fun m => m.name.toList = name.toList.map Char.toUpper

theorem ofName?_name (m : Method) : ofName? m.name = some m := by cases m <;> decide

end Method

/-- A request as it goes over the wire. -/
structure Request where
  method : Method
  address : String
  port : UInt16
  uri : String
  body : String
deriving DecidableEq, Repr

/-- The host part of a request: address and port. -/
def Request.host (r : Request) : String := r.address ++ ":" ++ Numeral.nat r.port.toNat

/-- A request together with the instant at which it was sent. -/
structure Sent where
  sentAt : Instant
  request : Request
deriving DecidableEq, Repr

/-- The causes of a failed exchange that make a difference. -/
inductive Disturbance where
  | connectionReset
  | connectionAborted
  | timedOut
  | other
deriving DecidableEq, Repr

/-- Why an exchange with a bridge failed. -/
inductive Failure where
  | transient (message : String)
  | network (message : String)
  | status (code : UInt16)
deriving DecidableEq, Repr, Inhabited

namespace Failure

/-- Whether the same request may be sent once more. -/
def isTransient : Failure → Bool
  | .transient _ => true
  | _ => false

/-- The failure that a disturbance of the connection amounts to. -/
def ofDisturbance (cause : Disturbance) (message : String) : Failure :=
  match cause with
  | .connectionReset | .connectionAborted | .timedOut => .transient message
  | .other => .network message

/-- A readable account. -/
def message : Failure → String
  | .transient m => "Transient network error: " ++ m
  | .network m => "Network/HTTP error: " ++ m
  | .status code => "HTTP status " ++ Numeral.nat code.toNat

end Failure

end LightBridge
