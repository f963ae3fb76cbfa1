import LightBridge.Wire.Request

/-!
Scripted transports.

A script holds, for a method and an address, a queue of answers that are used once each, in order,
and possibly a standing answer that is used whenever the queue is empty. Without either the
exchange fails. Every answer takes some time to arrive.
-/

namespace LightBridge

/-- The outcome of one exchange and the milliseconds that it takes. -/
structure Answer where
  outcome : Except Failure String
  delay : Nat

/-- The answers for one method and address. -/
structure Route where
  method : Method
  uri : String
  queued : List Answer
  standing : Option Answer

/-- A transport that answers from prepared routes. -/
structure Script where
  routes : List Route
  latency : Nat

namespace Script

/-- The script without answers. -/
def silent (latency : Nat) : Script := ⟨[], latency⟩

instance : Inhabited Script := ⟨silent 0⟩

/-- Whether a route is for the given method and address. -/
def Matches (method : Method) (uri : String) (r : Route) : Bool :=
  r.method = method && r.uri = uri

/-- Changes the route for a method and address, which is made when there is none. -/
def change (routes : List Route) (method : Method) (uri : String) (f : Route → Route) :
    List Route :=
  match routes with
  | [] => [f ⟨method, uri, [], none⟩]
  | r :: rest =>
    if Matches method uri r then f r :: rest else r :: change rest method uri f

/-- Appends an answer to a queue; it arrives after the latency of the script. -/
def enqueue (s : Script) (method : Method) (uri : String) (outcome : Except Failure String) :
    Script :=
  { s with routes := change s.routes method uri fun r =>
      { r with queued := r.queued ++ [⟨outcome, s.latency⟩] } }

/-- Sets the standing answer of a route. -/
def stand (s : Script) (method : Method) (uri : String) (reply : String) : Script :=
  { s with routes := change s.routes method uri fun r =>
      { r with standing := some ⟨.ok reply, s.latency⟩ } }

/-- One answer to be prepared: used once, or whenever nothing else is left. -/
inductive Line where
  | once (method : Method) (uri : String) (outcome : Except Failure String)
  | always (method : Method) (uri : String) (reply : String)

/-- The script with one more answer. -/
def add (s : Script) : Line → Script
  | .once method uri outcome => s.enqueue method uri outcome
  | .always method uri reply => s.stand method uri reply

/-- The script with the given answers, each of which takes the same time. -/
def ofLines (latency : Nat) (lines : List Line) : Script := lines.foldl add (silent latency)

/-- The number of answers that wait in the queue of a method and address. -/
def waiting (s : Script) (method : Method) (uri : String) : Nat :=
  match s.routes.find? (Matches method uri) with
  | some r => r.queued.length
  | none => 0

/-- The failure of a request that the script has no answer for. -/
def unexpected (method : Method) (uri : String) : Failure :=
  .network ("unexpected request: " ++ method.name ++ " " ++ uri)

/-- The answer to a request, and the script after it. -/
def answer (s : Script) (method : Method) (uri : String) : Answer × Script :=
  match s.routes.find? (Matches method uri) with
  | some ⟨_, _, next :: later, _⟩ =>
    (next, { s with routes := change s.routes method uri fun r => { r with queued := later } })
  | some ⟨_, _, [], some standing⟩ => (standing, s)
  | _ => (⟨.error (unexpected method uri), s.latency⟩, s)

end Script

end LightBridge
