import LightBridge.Proofs.Cache.Freshness
import LightBridge.Proofs.Resource.Creation
import LightBridge.Resource.Light
import LightBridge.Resource.Scene
import LightBridge.Resource.Schedule
import LightBridge.Resource.Sensor

/-!
# Writing attributes

A handle writes an attribute by one request, and when the reply acknowledges all that was written,
it fetches the root of its cache anew. All setters of all kinds of handles are this one operation at
different paths and with different fields. Main statement: what comes of such a write, for every
reply and every way in which one of the two requests can fail.
-/

namespace LightBridge

namespace Reply

variable {path : String} {fields : Fields} {reply : Json}

/-- A reply leaves out a written field, or acknowledges it with a value that does not agree. -/
def Misses (path : String) (fields : Fields) (reply : Json) : Prop :=
  ∃ field ∈ fields, ∀ value, acknowledged? reply (fieldAddress path field.1) = some value →
    value.agrees field.2 = false

theorem validate_of_refuses (h : Refuses reply) :
    ∃ r, refusal? reply = some r ∧ validate path fields reply = .error (.refused r) := by
  obtain ⟨r, hrefusal, hcheck⟩ := check_of_refuses h
  refine ⟨r, hrefusal, ?_⟩
  unfold validate
  rw [hcheck]
  rfl

theorem validate_of_no_array (h : ∀ entries, reply ≠ .array entries) :
    validate path fields reply = .error (.malformed (.noReplyArray path reply)) := by
  cases reply with
  | array entries => exact absurd rfl (h entries)
  | _ => rfl

theorem validate_of_not_refuses {entries : List Json} (h : ¬ Refuses (.array entries)) :
    validate path fields (.array entries) = .ok (acknowledgesAll path fields (.array entries)) := by
  rw [validate, check_of_not_refuses h]
  rfl

theorem acknowledgesAll_eq_false_iff :
    acknowledgesAll path fields reply = false ↔ Misses path fields reply := by
  rw [← Bool.not_eq_true, acknowledgesAll_iff, Misses]
  push Not
  simp only [ne_eq, Bool.not_eq_true]

end Reply

namespace Handle

variable {ι : Type}

/-- A write is its request and, when all is acknowledged, a refresh. -/
theorem write_eq (h : Handle ι) (path : String) (fields : Fields) (w : World) :
    h.write path fields w =
      match h.channel.request .put path (.object fields) w with
      | .error e u => .error e u
      | .ok reply u =>
        match Reply.validate path fields reply with
        | .error e => .error e u
        | .ok false => .ok false u
        | .ok true =>
          match h.cache.refresh u with
          | .error e v => .error e v
          | .ok () v => .ok true v := by
  simp only [write, Channel.write, bind, EStateM.bind]
  cases h.channel.request .put path (.object fields) w with
  | error e u => rfl
  | ok reply u =>
    dsimp only
    cases Reply.validate path fields reply with
    | error e => rfl
    | ok acknowledged =>
      cases acknowledged with
      | false => rfl
      | true =>
        simp only [Act.ofExcept, pure, EStateM.pure, if_true, EStateM.bind]
        cases h.cache.refresh u <;> rfl

end Handle

/-- A write of an attribute: a setter of a handle with its arguments. -/
inductive AttributeWrite where
  | renameLight (l : Light) (name : String)
  | renameGroup (g : Group) (name : String)
  | setGroupLights (g : Group) (ids : List Int32)
  | setRoomClass (g : Group) (roomClass : String)
  | renameScene (s : Scene) (name : String)
  | setSceneLights (s : Scene) (ids : List Int32)
  | storeScene (s : Scene) (transition : Option UInt16)
  | setSchedule (s : Schedule) (setting : Schedule.Setting)
  | renameSensor (s : Sensor) (name : String)
  | setSensorConfig (s : Sensor) (key : String) (value : Json)
  | setSensorState (s : Sensor) (key : String) (value : Json)
  | switchSensor (s : Sensor) (on : Bool)
  | alertSensor (s : Sensor) (alert : Sensor.Alert)

namespace AttributeWrite

/-- Does what is asked. -/
def perform : AttributeWrite → Act Bool
  | renameLight l name => l.rename name
  | renameGroup g name => g.rename name
  | setGroupLights g ids => g.setLights ids
  | setRoomClass g roomClass => g.setRoomClass roomClass
  | renameScene s name => s.rename name
  | setSceneLights s ids => s.setLights ids
  | storeScene s transition => s.store transition
  | setSchedule s setting => s.set setting
  | renameSensor s name => s.rename name
  | setSensorConfig s key value => s.setConfig key value
  | setSensorState s key value => s.setState key value
  | switchSensor s on => s.setOn on
  | alertSensor s alert => s.sendAlert alert

/-- The cache that the handle reads from. -/
def cache : AttributeWrite → Cache
  | renameLight l _ => l.cache
  | renameGroup g _ | setGroupLights g _ | setRoomClass g _ => g.cache
  | renameScene s _ | setSceneLights s _ | storeScene s _ => s.cache
  | setSchedule s _ => s.cache
  | renameSensor s _ | setSensorConfig s .. | setSensorState s .. | switchSensor s _
  | alertSensor s _ => s.cache

/-- The channel that the handle writes through. -/
def channel : AttributeWrite → Channel
  | renameLight l _ => l.channel
  | renameGroup g _ | setGroupLights g _ | setRoomClass g _ => g.channel
  | renameScene s _ | setSceneLights s _ | storeScene s _ => s.channel
  | setSchedule s _ => s.channel
  | renameSensor s _ | setSensorConfig s .. | setSensorState s .. | switchSensor s _
  | alertSensor s _ => s.channel

/-- Where the attribute is written. -/
def path : AttributeWrite → String
  | renameLight l _ => l.path
  | renameGroup g _ | setGroupLights g _ | setRoomClass g _ => g.path
  | renameScene s _ | setSceneLights s _ | storeScene s _ => s.path
  | setSchedule s _ => s.path
  | renameSensor s _ => s.path
  | setSensorConfig s .. | switchSensor s _ | alertSensor s _ => s.path ++ "/config"
  | setSensorState s .. => s.path ++ "/state"

/-- What is written. -/
def fields : AttributeWrite → Fields
  | renameLight _ name | renameGroup _ name | renameScene _ name | renameSensor _ name =>
    [("name", .string name)]
  | setGroupLights _ ids | setSceneLights _ ids => [("lights", LightIds.toJson ids)]
  | setRoomClass _ roomClass => [("class", .string roomClass)]
  | storeScene _ transition =>
    ("storelightstate", .bool true) ::
      transition.toList.map fun tenths => (Setter.transitionKey, Setter.word tenths)
  | setSchedule _ setting => [setting.field]
  | setSensorConfig _ key value | setSensorState _ key value => [(key, value)]
  | switchSensor _ on => [("on", .bool on)]
  | alertSensor _ alert => [("alert", .string alert.name)]

variable (a : AttributeWrite) {w u : World}

/-- The request for the write. -/
def request : Act Json := a.channel.request .put a.path (.object a.fields)

/-- The request as it goes out. -/
def put : Request := a.channel.compose .put a.path (.object a.fields)

/-- The request that fetches the root of the handle's cache. -/
def get : Request := a.cache.rootChannel.compose .get a.cache.rootPath (.object [])

/-- What that request gets when it is made in a world. -/
def answer (u : World) : Except Fault Json := Cache.answer a.cache.rootPath a.cache.rootChannel u

/-- All setters are one operation. -/
theorem perform_eq (w : World) :
    a.perform w =
      match a.request w with
      | .error e u => .error e u
      | .ok reply u =>
        match Reply.validate a.path a.fields reply with
        | .error e => .error e u
        | .ok false => .ok false u
        | .ok true =>
          match a.cache.refresh u with
          | .error e v => .error e v
          | .ok () v => .ok true v := by
  cases a <;> exact Handle.write_eq ..

/-! ## How a write ends -/

/-- A request was made, once, and nothing else was sent. -/
def Sends (c : Channel) (r : Request) (w u : World) : Prop :=
  ∃ times : List Instant, (∀ d, c.minDelay = .millis d → times.length = c.attempts r w) ∧
    u.sent = w.sent ++ times.map (⟨·, r⟩)

/-- The state was fetched: the root holds it, as old as the end of the request, all other roots hold
what they held, and the cache shows its part of it. -/
structure Fetches (a : AttributeWrite) (state : Json) (w v : World) : Prop where
  snapshots : v.snapshots = w.snapshots.set a.cache.rootNode ⟨state, v.now⟩
  held : v.held = w.held
  peek : outcome a.cache.peek v = a.cache.extract state

/-- What comes of a write that the bridge acknowledged in `u`: the root is fetched once. -/
structure Acknowledged (a : AttributeWrite) (w u : World) : Prop where
  sent : Sends a.cache.rootChannel a.get u (after a.perform w)
  /-- Without a state, the error is returned and everything is cached as before. -/
  failed : ∀ e, a.answer u = .error e →
    outcome a.perform w = .error e ∧ Channel.SameCaches w (after a.perform w)
  fetched : ∀ state, a.answer u = .ok state →
    outcome a.perform w = .ok true ∧ Fetches a state w (after a.perform w)

/-- What comes of a write. Where the write ends in the world `u` of its request, nothing happens
after the request. -/
structure WriteLaw (a : AttributeWrite) (w : World) : Prop where
  /-- The request is made once and leaves all that is cached alone. -/
  sent : Sends a.channel a.put w (after a.request w)
  caches : Channel.SameCaches w (after a.request w)
  failed : ∀ e u, a.request w = .error e u → a.perform w = .error e u
  refused : ∀ reply u, a.request w = .ok reply u → Reply.Refuses reply →
    ∃ r, Reply.refusal? reply = some r ∧ a.perform w = .error (.refused r) u
  noArray : ∀ reply u, a.request w = .ok reply u → (∀ entries, reply ≠ .array entries) →
    a.perform w = .error (.malformed (.noReplyArray a.path reply)) u
  missed : ∀ entries u, a.request w = .ok (.array entries) u → ¬ Reply.Refuses (.array entries) →
    Reply.Misses a.path a.fields (.array entries) → a.perform w = .ok false u
  acknowledged : ∀ reply u, a.request w = .ok reply u → Reply.Accepts a.path a.fields reply →
    Acknowledged a w u
  /-- True means that all was acknowledged and the state fetched. -/
  true_iff : outcome a.perform w = .ok true ↔ ∃ reply u state, a.request w = .ok reply u ∧
    Reply.Accepts a.path a.fields reply ∧ a.answer u = .ok state

variable {a} {reply : Json}

theorem perform_of_validate_error {e : Fault} (hrequest : a.request w = .ok reply u)
    (h : Reply.validate a.path a.fields reply = .error e) : a.perform w = .error e u := by
  simp only [perform_eq, hrequest, h]

theorem perform_of_missed (hrequest : a.request w = .ok reply u)
    (h : Reply.validate a.path a.fields reply = .ok false) : a.perform w = .ok false u := by
  simp only [perform_eq, hrequest, h]

/-- The refresh after an acknowledged write is a fetch of the root, since the request has not given
up the caches above. -/
theorem perform_of_accepts (hlive : a.cache.Live w) (hrequest : a.request w = .ok reply u)
    (h : Reply.Accepts a.path a.fields reply) :
    a.perform w =
      match Cache.fetch a.cache.rootNode a.cache.rootPath a.cache.rootChannel u with
      | .error e v => .error e v
      | .ok () v => .ok true v := by
  have hlinked : a.cache.linked u = .ok () := by
    rw [Cache.linked_congr (Channel.sameCaches_of_request hrequest).held]
    exact Cache.linked_eq_ok_iff.mpr hlive
  simp only [perform_eq, hrequest, Reply.validate_eq_true_iff.mpr h, Cache.refresh_eq, hlinked]

theorem acknowledged_of_accepts (hlive : a.cache.Live w) (hrequest : a.request w = .ok reply u)
    (h : Reply.Accepts a.path a.fields reply) : Acknowledged a w u := by
  have hperform := perform_of_accepts hlive hrequest h
  have hcaches : Channel.SameCaches w u := Channel.sameCaches_of_request hrequest
  let fetch := Cache.fetch a.cache.rootNode a.cache.rootPath a.cache.rootChannel
  -- the world ends where the fetch ends, whatever is made of its result
  have hafter : after a.perform w = after fetch u := by
    simp only [after, hperform, fetch]
    cases Cache.fetch a.cache.rootNode a.cache.rootPath a.cache.rootChannel u <;> rfl
  have hheld : (after fetch u).held = w.held := (Cache.held_fetch ..).trans hcaches.held
  refine ⟨?_, fun e he => ?_, fun state hstate => ?_⟩
  · rw [hafter]
    exact Cache.sent_fetch ..
  · -- nothing is stored
    have hfetch : Cache.fetch a.cache.rootNode a.cache.rootPath a.cache.rootChannel u =
        .error e (Cache.answered a.cache.rootPath a.cache.rootChannel u) := by
      rw [Cache.fetch_eq, show Cache.answer .. = _ from he]
    refine ⟨by simp only [outcome, hperform, hfetch], ?_⟩
    rw [hafter, after_of_error hfetch]
    exact hcaches.trans (Channel.sameCaches_request ..)
  · -- the state is stored in the root, where the cache above looks for it
    have hfetch : Cache.fetch a.cache.rootNode a.cache.rootPath a.cache.rootChannel u =
        .ok () ((Cache.answered a.cache.rootPath a.cache.rootChannel u).step
          (.store a.cache.rootNode state)) := by
      rw [Cache.fetch_eq, show Cache.answer .. = _ from hstate]
    have hsnapshots : (after fetch u).snapshots =
        w.snapshots.set a.cache.rootNode ⟨state, (after fetch u).now⟩ := by
      rw [after_of_ok hfetch, ← hcaches.snapshots,
        ← (a.cache.rootChannel.sameCaches_request .get a.cache.rootPath (.object []) u).snapshots]
      rfl
    refine ⟨by simp only [outcome, hperform, hfetch], ?_⟩
    rw [hafter]
    refine ⟨hsnapshots, hheld, ?_⟩
    have hlinked : a.cache.linked (after fetch u) = .ok () := by
      rw [Cache.linked_congr hheld]
      exact Cache.linked_eq_ok_iff.mpr hlive
    rw [Cache.outcome_peek, Cache.view, hlinked, hsnapshots, Table.get?_set_self]

theorem true_iff_of_live (hlive : a.cache.Live w) :
    outcome a.perform w = .ok true ↔ ∃ reply u state, a.request w = .ok reply u ∧
      Reply.Accepts a.path a.fields reply ∧ a.answer u = .ok state := by
  constructor
  · -- every other way to end is with an error or with false
    intro htrue
    cases hrequest : a.request w with
    | error e u => simp only [outcome, perform_eq, hrequest, reduceCtorEq] at htrue
    | ok reply u =>
      have haccepts : Reply.Accepts a.path a.fields reply := by
        rw [← Reply.validate_eq_true_iff]
        cases hvalidate : Reply.validate a.path a.fields reply with
        | error e =>
          rw [outcome_of_error (perform_of_validate_error hrequest hvalidate)] at htrue
          cases htrue
        | ok acknowledged =>
          cases acknowledged with
          | false =>
            rw [outcome_of_ok (perform_of_missed hrequest hvalidate)] at htrue
            cases htrue
          | true => rfl
      cases hanswer : a.answer u with
      | error e =>
        rw [((acknowledged_of_accepts hlive hrequest haccepts).failed e hanswer).1] at htrue
        cases htrue
      | ok state => exact ⟨reply, u, state, rfl, haccepts, hanswer⟩
  · rintro ⟨reply, u, state, hrequest, haccepts, hanswer⟩
    exact ((acknowledged_of_accepts hlive hrequest haccepts).fetched state hanswer).1

/-- **Writing attributes.** A setter makes one request. When that fails, or the reply refuses, is no
array, or leaves out or changes a field, this is what it answers, and nothing happens after the
request: nothing is sent, and all that is cached stays. When the reply acknowledges everything, the
root of the cache is fetched once. If a state comes, the answer is true and the root holds that
state; otherwise the error is returned, and the root holds what it held. The answer is true in no
other case. -/
theorem write_fetches_or_leaves_cache (a : AttributeWrite) (w : World) (hlive : a.cache.Live w) :
    WriteLaw a w where
  sent := a.channel.exists_times_of_request ..
  caches := a.channel.sameCaches_request ..
  failed e u hrequest := by simp only [perform_eq, hrequest]
  refused reply u hrequest hrefuses := by
    obtain ⟨r, hrefusal, hvalidate⟩ := Reply.validate_of_refuses hrefuses
    exact ⟨r, hrefusal, perform_of_validate_error hrequest hvalidate⟩
  noArray reply u hrequest hno :=
    perform_of_validate_error hrequest (Reply.validate_of_no_array hno)
  missed entries u hrequest hrefuses hmisses := by
    refine perform_of_missed hrequest ?_
    rw [Reply.validate_of_not_refuses hrefuses, Reply.acknowledgesAll_eq_false_iff.mpr hmisses]
  acknowledged _ _ := acknowledged_of_accepts hlive
  true_iff := true_iff_of_live hlive

/-- A schedule is disabled, and the whole state fetched for it; then the group of all lights is
renamed, and nothing comes of fetching its own root. -/
theorem schedule_disabled_then_group_renamed :
    let channel : Channel := ⟨"192.168.2.116", 80, "user", .millis 0, 1, 0⟩
    let script := Script.ofLines 30
      [.once .put "/api/user/schedules/1"
          (.ok "[\x7b\"success\":\x7b\"/schedules/1/status\":\"disabled\"\x7d\x7d]"),
        .once .get "/api/user" (.ok "\x7b\"schedules\":\x7b\"1\":\x7b\"status\":\"disabled\"\x7d\x7d\x7d"),
        .once .put "/api/user/groups/0"
          (.ok "[\x7b\"success\":\x7b\"/groups/0/name\":\"All\"\x7d\x7d]"),
        .once .get "/api/user/groups/0" (.ok "")]
    let w : World := { World.start with
      transports := Table.empty.set 0 script, slots := Table.empty.set 1 0, held := [2, 3, 4, 5]
      fresh := 6 }
    let state := Cache.root 2 "" channel .never
    let disable := setSchedule ⟨1, .child (.child state 3 "schedules") 4 "1", channel⟩ (.status false)
    let rename := renameGroup ⟨0, .root 5 "/groups/0" channel .never, channel⟩ "All"
    let u := after disable.perform w
    (disable.cache.Live w ∧ outcome disable.perform w = .ok true ∧ WriteLaw disable w) ∧
    (rename.cache.Live u ∧ (outcome rename.perform u).toOption = none ∧ WriteLaw rename u) ∧
    (after rename.perform u).sent.map (·.request.method) = [.put, .get, .put, .get] ∧
    (outcome (Schedule.isEnabled ⟨1, disable.cache, channel⟩) u).toOption = some false := by
  intro channel script w state disable rename u
  have hlive : disable.cache.Live w := by decide
  have hlive' : rename.cache.Live u := by decide +kernel
  have htrue : outcome disable.perform w = .ok true := eq_ok_of_toOption (by decide +kernel)
  have hfailed : (outcome rename.perform u).toOption = none := by decide +kernel
  have hsent : (after rename.perform u).sent.map (·.request.method) = [.put, .get, .put, .get] := by
    decide +kernel
  have hread : (outcome (Schedule.isEnabled ⟨1, disable.cache, channel⟩) u).toOption = some false := by
    decide +kernel
  exact ⟨⟨hlive, htrue, write_fetches_or_leaves_cache disable w hlive⟩,
    ⟨hlive', hfailed, write_fetches_or_leaves_cache rename u hlive'⟩, hsent, hread⟩

end AttributeWrite

end LightBridge
