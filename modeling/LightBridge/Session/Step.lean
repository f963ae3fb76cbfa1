import LightBridge.Config.Basic
import LightBridge.Resource.Collection

/-!
Steps of a session.

A session is a series of steps on some things of its own and a world. Each step either succeeds or
fails, leaves both behind, and is observed: its outcome, the instant at which it was over, and the
requests that it sent. After each step, what nobody holds any more is given up.
-/

namespace LightBridge

/-- Why an operation of a client of the library failed. -/
inductive ClientError where
  | fault (cause : Fault)
  /-- The link button was not pressed in time. -/
  | linkButtonTimeout (within : Duration)
  | config (cause : ConfigError)

/-- A readable account, for the errors that have one. -/
def ClientError.message? : ClientError → Option String
  | .fault cause => some ("API error: " ++ cause.message)
  | .linkButtonTimeout d => some ("Link button was not pressed within " ++ d.text)
  | .config cause => cause.message?

/-- Why a step failed. -/
inductive SessionError where
  | fault (cause : Fault)
  | client (cause : ClientError)
  /-- There is no pending change of that name. -/
  | noChange
  /-- There is nothing else of that name. -/
  | unknown (name : String)
  /-- The step would go on for ever. -/
  | unending

/-- What can be seen of an operation from outside. -/
structure Observed (ε α : Type) where
  outcome : Except ε α
  now : Instant
  sent : List Sent

/-- A step of a session. -/
abbrev Step (σ : Type) := EStateM SessionError (σ × World)

namespace Step

variable {σ α : Type}

/-- An operation as a step. -/
def ofActOn (wrap : Fault → SessionError) (x : ActOn σ α) : Step σ α := fun s =>
  match x s with
  | .ok a s => .ok a s
  | .error e s => .error (wrap e) s

/-- An operation whose faults are those of a client. -/
def asClient (x : ActOn σ α) : Step σ α := ofActOn (fun e => .client (.fault e)) x

instance : MonadLift (ActOn σ) (Step σ) := ⟨ofActOn .fault⟩

instance : MonadLift Act (Step σ) := ⟨fun x => ofActOn .fault (x.beside σ)⟩

/-- What the session has. -/
def here : Step σ σ := fun (s, w) => .ok s (s, w)

/-- Changes what the session has. -/
def update (f : σ → σ) : Step σ Unit := fun (s, w) => .ok () (f s, w)

/-- A value that a name stands for, or else an error. -/
def found (e : SessionError) : Option α → Step σ α
  | some a => pure a
  | none => throw e

/-- Does a step and observes it. Afterwards only the nodes in `held` are held. -/
def observe (held : σ → List NodeId) (x : Step σ α) (before : σ × World) :
    Observed SessionError α × (σ × World) :=
  let (outcome, s, w) : Except SessionError α × σ × World :=
    match x before with
    | .ok a (s, w) => (.ok a, s, w)
    | .error e (s, w) => (.error e, s, w)
  (⟨outcome, w.now, w.sent.drop before.2.sent.length⟩, (s, w.settle (held s)))

end Step

/-- Observes an operation of a client. It never fails itself. -/
def Act.observe {α : Type} (x : Act α) : Act (Observed ClientError α) := fun before =>
  match x before with
  | .ok a w => .ok ⟨.ok a, w.now, w.sent.drop before.sent.length⟩ w
  | .error e w => .ok ⟨.error (.fault e), w.now, w.sent.drop before.sent.length⟩ w

end LightBridge
