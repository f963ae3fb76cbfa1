import LightBridge.World
import LightBridge.Text.Quoted

/-!
Channels: how requests reach a bridge.

A bridge drops requests when it is flooded. All handles of one connection share a send slot: before
a request goes out its sender waits until the slot is free, and then keeps it busy for the minimum
delay of the connection. A request that fails as transient is sent once more, through the slot like
any other; the last attempt alone decides the result.
-/

namespace LightBridge

/-- A handle of a connection to a bridge, with the credentials that it uses. -/
structure Channel where
  address : String
  port : UInt16
  username : String
  minDelay : Duration
  slot : SlotId
  transport : TransportId
deriving DecidableEq, Repr

namespace Channel

/-- The spacing that is used unless a configuration sets another one. -/
def defaultMinDelay : Duration := .millis 100

/-- Opens a connection; its slot is free at once. -/
def connect (address : String) (port : UInt16) (username : String) (minDelay : Duration)
    (transport : TransportId) : Act Channel := do
  let slot ← Act.freshName
  modify fun w => { w with slots := w.slots.set slot w.now }
  pure { address, port, username, minDelay, slot, transport }

/-- A handle of the same connection for other credentials. -/
def asUser (c : Channel) (username : String) : Channel := { c with username }

/-- The full address of a path under the root of the user. -/
def uri (c : Channel) (path : String) : String :=
  let separator := if path.isEmpty || Text.startsWithSlash path then "" else "/"
  if c.username.isEmpty then "/api" ++ separator ++ path
  else "/api/" ++ c.username ++ separator ++ path

/-- The request that a method, a path and a body make on this channel. -/
def compose (c : Channel) (method : Method) (path : String) (body : Json) : Request :=
  { method, address := c.address, port := c.port, uri := c.uri path, body := body.text }

/-- Waits until the slot is free and keeps it busy for the minimum delay. An endless delay fails
after the wait, with the slot as it was. -/
def claimSlot (c : Channel) : Act Unit := fun w =>
  let start := max w.now (w.nextAllowed c.slot)
  match c.minDelay.after? start with
  | some free => .ok () { w with now := start, slots := w.slots.set c.slot free }
  | none => .error .timeOverflow { w with now := start }

/-- One attempt: the slot is claimed, then the request is sent. -/
def attempt (c : Channel) (r : Request) : Act (Except Failure String) := do
  c.claimSlot
  Act.exchange c.transport r

/-- The body of the reply to a request, after one more attempt when the first one fails as
transient. -/
def deliver (c : Channel) (r : Request) : Act String := do
  match ← c.attempt r with
  | .ok body => pure body
  | .error failure =>
    if failure.isTransient then
      match ← c.attempt r with
      | .ok body => pure body
      | .error failure => throw (.transport failure)
    else throw (.transport failure)

/-- The value in the reply to a request. -/
def request (c : Channel) (method : Method) (path : String) (body : Json) : Act Json := do
  let reply ← c.deliver (c.compose method path body)
  Act.ofExcept (Reply.read reply)

/-- Writes fields at a path; the answer is whether the bridge acknowledged every one of them. -/
def write (c : Channel) (path : String) (fields : Fields) : Act Bool := do
  let reply ← c.request .put path (.object fields)
  Act.ofExcept (Reply.validate path fields reply)

/-- A readable description. -/
def describe (c : Channel) : String :=
  "CommandDispatcher \x7b address: " ++ Text.quote c.address ++ ", port: " ++
    Numeral.nat c.port.toNat ++ ", min_delay: " ++ c.minDelay.text ++ ", .. \x7d"

end Channel

end LightBridge
