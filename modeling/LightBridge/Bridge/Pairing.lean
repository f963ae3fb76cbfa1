import LightBridge.Bridge.Basic

/-!
Pairing.

A new user is registered by a request without credentials while the link button of the bridge is
pressed. Until then the bridge refuses with code 101, and the request is repeated, with a pause
after each refusal, until the refusals have lasted for the timeout. Every other failure ends the
attempt. Only success changes the bridge: it switches to the new user.
-/

namespace LightBridge

namespace Pairing

/-- The code of the refusal while the link button is not pressed. -/
def linkButtonNotPressed : Int := 101

/-- What a reply to a pairing request means: the new user, or nothing while the link button is not
pressed. -/
def judge (reply : Json) : Except Fault (Option String) :=
  match Reply.refusal? reply with
  | some refusal =>
    if refusal.code = linkButtonNotPressed then .ok none else .error (.refused refusal)
  | none =>
    match (Reply.acknowledged? reply "username").bind Json.string? with
    | some username => .ok (some username)
    | none => .error (.malformed (.noUsername reply))

/-- The body of a pairing request. -/
def body (config : Config) : Json := .object [("devicetype", .string config.deviceType)]

/-- What asking for a user comes to. -/
inductive Ending where
  | user (username : String)
  /-- The refusals have lasted for the timeout. -/
  | timeout
  /-- There was no attempt left, and neither a user nor a timeout. -/
  | unfinished
deriving DecidableEq, Repr

/-- Asks until there is a user, or until the refusals have lasted for the timeout; `attempts` bounds
the number of requests. -/
def ask (config : Config) (channel : Channel) (started : Instant) :
    (attempts : Nat) → Act Ending
  | 0 => pure .unfinished
  | attempts + 1 => do
    let reply ← channel.request .post "" (body config)
    match ← Act.ofExcept (judge reply) with
    | some username => pure (.user username)
    | none => do
      let now ← Act.now
      if config.pairingTimeout.hasPassed (now - started) then pure .timeout
      else do
        Act.wait config.pairingInterval
        ask config channel started attempts

/-- A number of requests that suffices: every answer that is prepared may be used up without any
time passing, and after that each request takes a millisecond at least. Refusals for ever while the
clock stands still, or within a timeout that never passes, would need more, and asking then does not
end. -/
def enough (config : Config) (prepared : Nat) : Nat :=
  match config.pairingTimeout with
  | .millis n => prepared + n + 2
  | .never => prepared + 2

end Pairing

/-- Registers a new user and switches to it. Without a user the bridge stays as it was. -/
def Bridge.pair : ActOn Bridge Pairing.Ending := do
  let b ← ActOn.current
  let channel := b.connection.channel.asUser ""
  let started ← Act.now
  let prepared ← Act.waiting channel.transport .post (channel.uri "")
  match ← Pairing.ask b.config channel started (Pairing.enough b.config prepared) with
  | .user username => do
    Bridge.setUsername username
    pure (.user username)
  | ending => pure ending

end LightBridge
