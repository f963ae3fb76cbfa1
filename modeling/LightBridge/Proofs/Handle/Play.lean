import LightBridge.Proofs.Change.Play
import LightBridge.Proofs.Resource.Play
import LightBridge.Resource.Group
import LightBridge.Resource.Light
import LightBridge.Resource.Scene
import LightBridge.Resource.Schedule

/-!
# What handles do to a world

A handle reads through its cache and writes through its channel. Every operation of every kind of
handle is put together from these two.
-/

namespace LightBridge

variable {C : Channel → Prop} {P : World → Deed → Prop}

namespace Handle

variable {ι α : Type}

/-- A handle uses channels in `C` only. -/
structure Over (C : Channel → Prop) (h : Handle ι) : Prop where
  cache : h.cache.Over C
  channel : C h.channel

/-- Reading and writing through a handle is admitted. -/
structure Used (P : World → Deed → Prop) (h : Handle ι) : Prop where
  idle : AdmitsIdle P
  cache : h.cache.Used P
  channel : h.channel.Used P

theorem Over.used {p : Scope} {h : Handle ι} (hh : h.Over p.channel) : h.Used p.Admits :=
  ⟨p.admitsIdle, hh.cache.used, Scope.channelUsed hh.channel⟩

theorem plays_look {h : Handle ι} (hh : h.Used P) (f : Json → α) :
    Act.Plays P (fun _ => True) (h.look f) :=
  (Cache.plays_value hh.cache).map fun _ _ => trivial

theorem plays_write {h : Handle ι} (hh : h.Used P) (hcache : h.cache.Refetched P) (path : String)
    (fields : Fields) : Act.Plays P (fun _ => True) (h.write path fields) := by
  -- a write that was acknowledged is followed by a refresh
  refine (Channel.plays_write_of_used hh.channel path fields).bind fun acknowledged _ => ?_
  cases acknowledged with
  | false => exact .pure false trivial
  | true => exact (Cache.plays_refresh hcache).andThen (.pure true trivial)

/-- A change of a resource has the channel of the handle, and a view of its own below the cache. -/
theorem plays_change {h : Handle ι} (hh : h.Used P) (key path : String) :
    Act.Plays P (fun c => c.channel = h.channel ∧ ∃ node, c.cache = some (.child h.cache node key))
      (h.change key path) := by
  refine (Cache.plays_newChild hh.idle h.cache key).bind fun cache hchild => ?_
  have hcache : cache.Used P := by
    obtain ⟨node, rfl⟩ := hchild
    exact hh.cache
  refine (Cache.plays_value hcache).bind fun _ _ => .pure _ ⟨rfl, ?_⟩
  obtain ⟨node, rfl⟩ := hchild
  exact ⟨node, rfl⟩

/-- What a reading shows can be shown in any way. -/
theorem plays_reading {x : Act α} (hx : Act.Plays P (fun _ => True) x) (f : α → Reading) :
    Act.Plays P (fun _ => True) (f <$> x) :=
  hx.map fun _ _ => trivial

/-- Views of the field `key` below the cache of a handle may be patched with what was sent. -/
def Patched (P : World → Deed → Prop) (h : Handle ι) (key : String) : Prop :=
  ∀ node body w, P w (.update (.child h.cache node key) (Change.patchState body))

theorem plays_commit {h : Handle ι} (hh : h.Used P) {key : String} (hpatch : h.Patched P key)
    {c : Change} (hchannel : c.channel = h.channel)
    (hcache : ∃ node, c.cache = some (.child h.cache node key)) :
    Act.Plays P (fun _ => True) c.commit := by
  refine Change.plays_commit_of_used (by rw [hchannel]; exact hh.channel) fun body _ cache hc => ?_
  obtain ⟨node, hnode⟩ := hcache
  cases hnode.symm.trans hc
  exact hpatch node body

end Handle

open Handle

theorem Light.plays_setOn {l : Light} (hl : l.Used P) (hpatch : l.Patched P "state") (on : Bool)
    (transition : UInt16) : Act.Plays P (fun _ => True) (l.setOn on transition) :=
  (plays_change hl _ _).bind fun _ ⟨hchannel, hcache⟩ =>
    Handle.plays_commit hl hpatch (c := (Change.set _ _).set _) hchannel hcache

theorem Light.plays_flash {l : Light} (hl : l.Used P) (hpatch : l.Patched P "state") :
    Act.Plays P (fun _ => True) l.flash :=
  (plays_change hl _ _).bind fun _ ⟨hchannel, hcache⟩ =>
    Handle.plays_commit hl hpatch (c := Change.set _ _) hchannel hcache

namespace Light.Operation

/-- Whether an operation fetches also what is not stale. -/
def refetches : Light.Operation → Bool
  | .refresh | .rename _ => true
  | _ => false

/-- Whether an operation patches the state that is held with what it sends. -/
def patches : Light.Operation → Bool
  | .setOn .. | .flash => true
  | _ => false

end Light.Operation

theorem Light.plays_perform {l : Light} (hl : l.Used P) {operation : Light.Operation}
    (h : operation.refetches = true → l.cache.Refetched P)
    (hpatch : operation.patches = true → l.Patched P "state") :
    Act.Plays P (fun _ => True) (l.perform operation) := by
  cases operation with
  | id => exact .pure _ trivial
  | refresh => exact (Cache.plays_refresh (h rfl)).andThen (.pure _ trivial)
  | name | kind | model | isOn | isReachable | brightness | colorMode =>
    exact plays_reading (plays_look hl _) _
  | rename name => exact plays_reading (plays_write hl (h rfl) _ _) _
  | setOn on transition => exact plays_reading (plays_setOn hl (hpatch rfl) on transition) _
  | flash => exact plays_reading (plays_flash hl (hpatch rfl)) _

theorem Group.plays_activateScene {channel : Channel} (hchannel : channel.Used P) (id : Int32)
    (scene : String) :
    Act.Plays P (fun _ => True) (activateScene channel id scene) :=
  Channel.plays_write_of_used hchannel _ _

/-- Whether an operation fetches also what is not stale. -/
def Group.Operation.refetches : Group.Operation → Bool
  | .refresh | .rename _ | .setLights _ | .setRoomClass _ => true
  | _ => false

theorem Group.plays_perform {g : Group} (hg : g.Used P) {operation : Group.Operation}
    (h : operation.refetches = true → g.cache.Refetched P) :
    Act.Plays P (fun _ => True) (g.perform operation) := by
  cases operation with
  | id => exact .pure _ trivial
  | refresh => exact (Cache.plays_refresh (h rfl)).andThen (.pure _ trivial)
  | name | kind | lights | roomClass | allOn | anyOn | actionOn | actionBrightness
    | actionColorMode => exact plays_reading (plays_look hg _) _
  | rename | setLights | setRoomClass => exact plays_reading (plays_write hg (h rfl) _ _) _
  | activateScene scene => exact plays_reading (plays_activateScene hg.channel _ _) _

/-- Whether an operation fetches also what is not stale. -/
def Schedule.Operation.refetches : Schedule.Operation → Bool
  | .refresh | .set _ => true
  | _ => false

theorem Schedule.plays_perform {s : Schedule} (hs : s.Used P) {operation : Schedule.Operation}
    (h : operation.refetches = true → s.cache.Refetched P) :
    Act.Plays P (fun _ => True) (s.perform operation) := by
  cases operation with
  | id => exact .pure _ trivial
  | refresh => exact (Cache.plays_refresh (h rfl)).andThen (.pure _ trivial)
  | command =>
    refine plays_reading ((plays_look hs _).bind fun reported _ => ?_) _
    exact Act.plays_ofExcept _ fun _ _ => trivial
  | name | description | time | status | autodelete => exact plays_reading (plays_look hs _) _
  | set setting => exact plays_reading (plays_write hs (h rfl) _ _) _

theorem Scene.plays_activate {s : Scene} (hs : s.Used P) :
    Act.Plays P (fun _ => True) s.activate := by
  refine (plays_look hs _).bind fun kind _ => ?_
  cases kind with
  | groupScene =>
    -- the state is read a second time, for the group
    exact (plays_look hs _).bind fun _ _ => Group.plays_activateScene hs.channel _ _
  | lightScene => exact Group.plays_activateScene hs.channel _ _

/-- Whether an operation fetches also what is not stale. -/
def Scene.Operation.refetches : Scene.Operation → Bool
  | .refresh | .rename _ | .setLights _ | .store _ => true
  | _ => false

theorem Scene.plays_perform {s : Scene} (hs : s.Used P) {operation : Scene.Operation}
    (h : operation.refetches = true → s.cache.Refetched P) :
    Act.Plays P (fun _ => True) (s.perform operation) := by
  cases operation with
  | id => exact .pure _ trivial
  | refresh => exact (Cache.plays_refresh (h rfl)).andThen (.pure _ trivial)
  | name | kind | group | lights | owner | isLocked | recycle =>
    exact plays_reading (plays_look hs _) _
  | rename | setLights | store => exact plays_reading (plays_write hs (h rfl) _ _) _
  | activate => exact plays_reading (plays_activate hs) _

/-- Whether an operation fetches also what is not stale. -/
def Sensor.Operation.refetches : Sensor.Operation → Bool
  | .refresh | .rename _ | .setConfig .. | .setState .. | .setOn _ | .sendAlert _ => true
  | _ => false

theorem Sensor.plays_perform {s : Sensor} (hs : s.Used P) {operation : Sensor.Operation}
    (h : operation.refetches = true → s.cache.Refetched P) :
    Act.Plays P (fun _ => True) (s.perform operation) := by
  cases operation with
  | id => exact .pure _ trivial
  | refresh => exact (Cache.plays_refresh (h rfl)).andThen (.pure _ trivial)
  | name | kind | model | manufacturer | uniqueId | config | state | isOn | isReachable | battery
    | lastAlert | lastUpdated | buttonEvent => exact plays_reading (plays_look hs _) _
  | rename | setConfig | setState | setOn | sendAlert =>
    exact plays_reading (plays_write hs (h rfl) _ _) _

end LightBridge
