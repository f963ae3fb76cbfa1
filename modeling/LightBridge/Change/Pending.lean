import LightBridge.Cache
import LightBridge.Change.Setter

/-!
Pending changes.

A change collects settings for one state object of a light or group. When it is committed, what the
last known state already satisfies is left out, and the rest goes to the bridge in one request,
with the power switched on or off where the settings imply it. Once the bridge has acknowledged
everything, the cached state is patched with what was sent.
-/

namespace LightBridge

/-- A change that has not been sent yet. -/
structure Change where
  channel : Channel
  path : String
  /-- The last known state; empty when that is no object. -/
  baseline : Fields
  /-- The cache of the state object, patched after a commit. -/
  cache : Option Cache
  /-- The fields to send, in the order in which they were set. -/
  request : Fields

namespace Change

/-- A change without settings. -/
def start (channel : Channel) (path : String) (baseline : Json) (cache : Option Cache) : Change :=
  { channel, path, baseline := baseline.object?.getD [], cache, request := [] }

/-- The change with a further setting. -/
def set (c : Change) (s : Setter) : Change := { c with request := s.apply c.request }

/-- The colour mode that setting a field leads to. -/
def impliedMode? (key : String) : Option String :=
  match key with
  | "hue" | "sat" => some "hs"
  | "xy" => some "xy"
  | "ct" => some "ct"
  | _ => none

/-- The fields that a light shows, so that it should be on. -/
def visibleKeys : List String := ["effect", "hue", "sat", "xy", "ct"]

/-- The colour mode of a state, or empty text. -/
def modeOf (baseline : Fields) : String := ((Fields.value? baseline "colormode").bind Json.string?).getD ""

/-- Whether a field has to be sent. A colour field is satisfied by an agreeing value only in the
colour mode that it implies; brightness and effect are satisfied by an agreeing value; nothing else
is ever satisfied. -/
def isNeeded (baseline : Fields) (field : String × Json) : Bool :=
  match Fields.value? baseline field.1 with
  | none => true
  | some current =>
    match impliedMode? field.1 with
    | some mode => !(current.agrees field.2 && modeOf baseline == mode)
    | none => if field.1 = "bri" || field.1 = "effect" then !current.agrees field.2 else true

/-- Whether a field would switch the colour mode. -/
def switchesMode (baseline : Fields) (field : String × Json) : Bool :=
  match impliedMode? field.1 with
  | some mode => mode != modeOf baseline
  | none => false

/-- Whether the power that is asked for is the power there is. -/
def powerUnchanged (baseline request : Fields) : Bool :=
  match Fields.value? request "on", Fields.value? baseline "on" with
  | some requested, some current => requested.same current
  | _, _ => false

/-- A request without what the baseline satisfies. The power setting is kept while a field that is
left would switch the colour mode. -/
def trimFields (baseline request : Fields) : Fields :=
  let kept := request.filter (isNeeded baseline)
  if powerUnchanged baseline kept && !kept.any (switchesMode baseline) then Fields.remove kept "on"
  else kept

/-- The change without what its baseline satisfies. -/
def trim (c : Change) : Change := { c with request := trimFields c.baseline c.request }

/-- Whether there is nothing to send: no field, or a transition time alone. -/
def isIdle (request : Fields) : Bool :=
  request.isEmpty || (request.length == 1 && Fields.has request Setter.transitionKey)

/-- The power setting that a request without one implies: off for brightness zero unless the light
is known to be off, on for anything visible unless it is known to be on. -/
def impliedPower? (baseline request : Fields) : Option Bool :=
  if Fields.has request "on" then none
  else
    let known := (Fields.value? baseline "on").bind Json.bool?
    let brightness := (Fields.value? request "bri").bind Json.nat64?
    if brightness = some 0 && known.getD true then some false
    else if !known.getD false &&
        (brightness.any (· ≠ 0) || visibleKeys.any (Fields.has request)) then some true
    else none

/-- A request with the power setting that it implies. -/
def withPower (baseline request : Fields) : Fields :=
  match impliedPower? baseline request with
  | some power => Fields.put request "on" (.bool power)
  | none => request

/-- What a commit sends, unless that is nothing. -/
def body? (c : Change) : Option Fields :=
  let trimmed := trimFields c.baseline c.request
  if isIdle trimmed then none else some (withPower c.baseline trimmed)

/-- The colour mode that a bridge reports after a request. -/
def resultingMode? (request : Fields) : Option String :=
  (["xy", "ct", "hue", "sat"].find? (Fields.has request)).bind impliedMode?

/-- Whether a sent field stays in the state: neither a transition time nor an increment does. -/
def isDurable (field : String × Json) : Bool :=
  field.1 != Setter.transitionKey && !Text.endsWith field.1 "_inc"

/-- The fields of a state object after a request. -/
def patched (request state : Fields) : Fields :=
  let state := Fields.putAll state (request.filter isDurable)
  match resultingMode? request with
  | some mode => Fields.put state "colormode" (.string mode)
  | none => state

/-- A state after a request; what is no object stays as it is. -/
def patchState (request : Fields) : Json → Json
  | .object state => .object (patched request state)
  | v => v

/-- Patches the cached state after a request. That nothing is cached, or that the cache was given
up, is no failure. -/
def writeBack (cache : Option Cache) (request : Fields) : Act Unit :=
  match cache with
  | none => pure ()
  | some cache => fun w =>
    match cache.patch (patchState request) w with
    | .error (.cacheEmpty _) w | .error (.detached _) w => .ok () w
    | result => result

/-- Sends what has to be sent. The answer is whether the bridge acknowledged every field; with
nothing to send it is true at once. -/
def commit (c : Change) : Act Bool :=
  match c.body? with
  | none => pure true
  | some body => do
    let acknowledged ← c.channel.write c.path body
    if acknowledged then writeBack c.cache body
    pure acknowledged

end Change

end LightBridge
