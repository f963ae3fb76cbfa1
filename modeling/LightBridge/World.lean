import LightBridge.Fault
import LightBridge.Table
import LightBridge.Json.Reader
import LightBridge.Text.Blank
import LightBridge.Wire.Script

/-!
The world that bridge operations act on.

A world has a clock, the scripted transports, the requests sent so far, the send slots of the
connections, and the nodes of the state caches: what their roots hold, and which of them somebody
still holds. An operation either succeeds or fails with a `Fault`; both ways it leaves a world
behind, since time passes and requests are sent also when an operation fails.
-/

namespace LightBridge

/-- Names a scripted transport. -/
abbrev TransportId := Nat

/-- Names the send slot that the handles of one connection share. -/
abbrev SlotId := Nat

/-- Names a node of a state cache. -/
abbrev NodeId := Nat

/-- What the root of a cache holds: the last good reply with the patches since, and the instant at
which that reply had arrived. -/
structure Snapshot where
  value : Json
  fetchedAt : Instant
deriving Inhabited

/-- The state that operations share. -/
structure World where
  now : Instant
  sent : List Sent
  transports : Table TransportId Script
  slots : Table SlotId Instant
  snapshots : Table NodeId Snapshot
  held : List NodeId
  fresh : Nat
deriving Inhabited

namespace World

/-- A world at its first instant, with nothing in it. -/
def start : World :=
  { now := 0, sent := [], transports := .empty, slots := .empty, snapshots := .empty, held := []
    fresh := 0 }

/-- Whether somebody still holds a node. -/
def holds (w : World) (node : NodeId) : Bool := w.held.contains node

/-- Records which nodes are held from now on. -/
def settle (w : World) (held : List NodeId) : World := { w with held := held }

/-- The instant before which no request may be sent through a slot. -/
def nextAllowed (w : World) (slot : SlotId) : Instant := (w.slots.get? slot).getD 0

/-- The script behind a transport. -/
def script (w : World) (transport : TransportId) : Script :=
  (w.transports.get? transport).getD default

end World

/-- An operation on a world. -/
abbrev Act := EStateM Fault World

/-- An operation on a world and on a value of its own. -/
abbrev ActOn (σ : Type) := EStateM Fault (σ × World)

/-- An operation on a world leaves the other value as it is. -/
def Act.beside {α : Type} (σ : Type) (x : Act α) : ActOn σ α := fun (s, w) =>
  match x w with
  | .ok a w => .ok a (s, w)
  | .error e w => .error e (s, w)

instance (σ : Type) : MonadLift Act (ActOn σ) := ⟨fun x => x.beside σ⟩

/-- An operation on a part of a value leaves the rest of the value as it is. -/
def ActOn.within {σ τ α : Type} (part : σ → τ) (replace : σ → τ → σ) (x : ActOn τ α) :
    ActOn σ α := fun (s, w) =>
  match x (part s, w) with
  | .ok a (t, w) => .ok a (replace s t, w)
  | .error e (t, w) => .error e (replace s t, w)

namespace Act

/-- The present instant. -/
def now : Act Instant := fun w => .ok w.now w

/-- A name that was not used before. -/
def freshName : Act Nat := fun w => .ok w.fresh { w with fresh := w.fresh + 1 }

/-- The instant before which no request may be sent through a slot. -/
def nextAllowed (slot : SlotId) : Act Instant := fun w => .ok (w.nextAllowed slot) w

/-- Lets time pass; an endless wait fails. -/
def wait (d : Duration) : Act Unit := fun w =>
  match d.after? w.now with
  | some t => .ok () { w with now := t }
  | none => .error .timeOverflow w

/-- Puts a script behind a new transport. -/
def addTransport (s : Script) : Act TransportId := do
  let id ← freshName
  modify fun w => { w with transports := w.transports.set id s }
  pure id

/-- The time that the answers of a transport take. -/
def latency (transport : TransportId) : Act Nat := fun w => .ok (w.script transport).latency w

/-- Changes the script behind a transport. -/
def changeScript (transport : TransportId) (f : Script → Script) : Act Unit :=
  modify fun w => { w with transports := w.transports.set transport (f (w.script transport)) }

/-- The number of answers that a transport has ready for a method and address. -/
def waiting (transport : TransportId) (method : Method) (uri : String) : Act Nat := fun w =>
  .ok ((w.script transport).waiting method uri) w

/-- Sends one request: it is recorded, the transport answers, and the clock moves by the time that
the answer takes. -/
def exchange (transport : TransportId) (r : Request) : Act (Except Failure String) := fun w =>
  let (answer, script) := (w.script transport).answer r.method r.uri
  .ok answer.outcome
    { w with
      now := w.now + answer.delay
      sent := w.sent ++ [⟨w.now, r⟩]
      transports := w.transports.set transport script }

end Act

/-- The value in the body of a reply. -/
def Reply.read (body : String) : Except Fault Json :=
  if Text.isAllBlank body then .error (.malformed .emptyBody)
  else
    match Json.read? body with
    | some v => .ok v
    | none => .error (.malformed .notJson)

/-- Fails with the first refusal in a reply. -/
def Reply.check (reply : Json) : Except Fault Unit :=
  match Reply.refusal? reply with
  | some r => .error (.refused r)
  | none => .ok ()

/-- Whether a reply acknowledges everything that was written to `path`. A refusal fails, and so
does a reply that is no array. -/
def Reply.validate (path : String) (fields : Fields) (reply : Json) : Except Fault Bool := do
  Reply.check reply
  match reply with
  | .array _ => pure (Reply.acknowledgesAll path fields reply)
  | _ => throw (.malformed (.noReplyArray path reply))

/-- A result as an operation that changes nothing. -/
def Act.ofExcept {α : Type} : Except Fault α → Act α
  | .ok a => pure a
  | .error e => throw e

end LightBridge
