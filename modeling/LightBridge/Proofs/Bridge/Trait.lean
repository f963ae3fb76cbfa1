import LightBridge.Proofs.Bridge.Reconnect
import LightBridge.Proofs.Resource.Trait

/-!
# Where the handles of a bridge come from

A connection makes a root for the whole state and a view of it for each collection. A switch makes
all of them anew.
-/

namespace LightBridge

open Collection (bearing entryBearing)

variable {t : Trait} {task : Task} {n m : Names}

/-- All handles of a connection have a trait. -/
structure Connection.Bears (t : Trait) (n : Names) (x : Connection) : Prop where
  state : t.At n x.state
  lights : x.lights.Bears t n
  groups : x.groups.Bears t n
  schedules : x.schedules.Bears t n
  scenes : x.scenes.Bears t n
  sensors : x.sensors.Bears t n

theorem Connection.Bears.mono {x : Connection} (hnm : n ≤ m) (h : x.Bears t n) : x.Bears t m :=
  ⟨t.mono hnm h.state, h.lights.mono hnm, h.groups.mono hnm, h.schedules.mono hnm,
    h.scenes.mono hnm, h.sensors.mono hnm⟩

namespace Bridge

variable {α : Type} {Q : Enduring α}

/-- The handles that a bridge has. -/
def handles (b : Bridge) : List Cache :=
  b.connection.state :: b.connection.lights.handles ++ b.connection.groups.handles ++
    b.connection.schedules.handles ++ b.connection.scenes.handles ++ b.connection.sensors.handles

theorem held_eq_handles (b : Bridge) : b.held = b.handles.map (·.node) := by
  simp only [held, handles, Collection.held_eq_handles, List.map_append, List.map_cons]

theorem bears_iff {b : Bridge} : b.connection.Bears t n ↔ ∀ c ∈ b.handles, t.At n c := by
  simp only [handles, List.forall_mem_append, List.forall_mem_cons, ← Collection.bears_iff]
  exact ⟨fun h => ⟨⟨⟨⟨⟨h.state, h.lights⟩, h.groups⟩, h.schedules⟩, h.scenes⟩, h.sensors⟩,
    fun ⟨⟨⟨⟨⟨hstate, hlights⟩, hgroups⟩, hschedules⟩, hscenes⟩, hsensors⟩ =>
      ⟨hstate, hlights, hgroups, hschedules, hscenes, hsensors⟩⟩

/-- A trait of all handles, as what lasts of a bridge. -/
def bearing (t : Trait) : Enduring Bridge :=
  ⟨fun n b => b.connection.Bears t n, Connection.Bears.mono⟩

theorem passes_connect (config : Config) (transport : TransportId) :
    Act.Passes t task n (bearing t) (connect config transport) := by
  refine .bind (Q := ⟨fun n x => x.Bears t n, Connection.Bears.mono⟩) ?_ fun _ _ _ hx => .pure hx
  have hchannel := Act.plays_of_step (P := task.Admits n.roots) (Q := fun _ => True)
    (x := Channel.connect config.address config.port config.username config.minDelay transport)
    (fun _ => .newSlot) (fun _ => trivial) (fun _ => rfl) fun _ _ _ _ => trivial
  refine (Passes.of_plays hchannel).bind fun channel _ _ _ => ?_
  -- every collection reads its part of the one root
  refine (Cache.passes_newRoot "" channel config.refreshInterval).bind fun state _ _ h => ?_
  refine (Collection.passes_below h channel _ _).bind fun lights _ hk hlights => ?_
  have h := t.mono hk h
  refine (Collection.passes_below h channel _ _).bind fun groups _ hk hgroups => ?_
  have h := t.mono hk h
  have hlights := hlights.mono hk
  refine (Collection.passes_below h channel _ _).bind fun schedules _ hk hschedules => ?_
  have h := t.mono hk h
  have hlights := hlights.mono hk
  have hgroups := hgroups.mono hk
  refine (Collection.passes_below h channel _ _).bind fun scenes _ hk hscenes => ?_
  have h := t.mono hk h
  have hlights := hlights.mono hk
  have hgroups := hgroups.mono hk
  have hschedules := hschedules.mono hk
  refine (Collection.passes_below h channel _ _).bind fun sensors _ hk hsensors => .pure ?_
  exact ⟨t.mono hk h, hlights.mono hk, hgroups.mono hk, hschedules.mono hk, hscenes.mono hk, hsensors⟩

/-! ## Acting on a bridge -/

section Parts

variable {s : Bridge × World}

theorem passes_onLights {x : ActOn (Collection Int32) α}
    (hx : PassesOnFrom t task n (Collection.bearing t) Q x (s.1.connection.lights, s.2)) :
    PassesOnFrom t task n (bearing t) Q (onLights x) s :=
  hx.within (fun _ hb => hb.lights) fun _ _ hb hl => { hb with lights := hl }

theorem passes_onGroups {x : ActOn (Collection Int32) α}
    (hx : PassesOnFrom t task n (Collection.bearing t) Q x (s.1.connection.groups, s.2)) :
    PassesOnFrom t task n (bearing t) Q (onGroups x) s :=
  hx.within (fun _ hb => hb.groups) fun _ _ hb hl => { hb with groups := hl }

theorem passes_onSchedules {x : ActOn (Collection Int32) α}
    (hx : PassesOnFrom t task n (Collection.bearing t) Q x (s.1.connection.schedules, s.2)) :
    PassesOnFrom t task n (bearing t) Q (onSchedules x) s :=
  hx.within (fun _ hb => hb.schedules) fun _ _ hb hl => { hb with schedules := hl }

theorem passes_onScenes {x : ActOn (Collection String) α}
    (hx : PassesOnFrom t task n (Collection.bearing t) Q x (s.1.connection.scenes, s.2)) :
    PassesOnFrom t task n (bearing t) Q (onScenes x) s :=
  hx.within (fun _ hb => hb.scenes) fun _ _ hb hl => { hb with scenes := hl }

theorem passes_onSensors {x : ActOn (Collection Int32) α}
    (hx : PassesOnFrom t task n (Collection.bearing t) Q x (s.1.connection.sensors, s.2)) :
    PassesOnFrom t task n (bearing t) Q (onSensors x) s :=
  hx.within (fun _ hb => hb.sensors) fun _ _ hb hl => { hb with sensors := hl }

end Parts

/-- A handle of a resource has the cache of its entry. -/
theorem passes_handle {ι : Type} {find : ActOn Bridge (Resource ι)}
    (hfind : PassesOn t task n (bearing t) (entryBearing t) find) :
    PassesOn t task n (bearing t) (t.toEnduring.on (·.cache)) (handle find) :=
  hfind.bind fun _ _ _ hr => PassesOn.current.bind fun _ _ hm _ => .pure (t.mono hm hr)

theorem passes_light (id : Int32) :
    PassesOn t task n (bearing t) (t.toEnduring.on (·.cache)) (light id) :=
  (passes_handle fun _ => passes_onLights (Collection.passes_get id _)).bind fun _ _ _ hh => .pure hh

theorem passes_group (id : Int32) :
    PassesOn t task n (bearing t) (t.toEnduring.on (·.cache)) (group id) :=
  (passes_handle fun _ => passes_onGroups (Groups.passes_get id _)).bind fun _ _ _ hh => .pure hh

theorem passes_schedule (id : Int32) :
    PassesOn t task n (bearing t) (t.toEnduring.on (·.cache)) (schedule id) :=
  (passes_handle fun _ => passes_onSchedules (Collection.passes_get id _)).bind fun _ _ _ hh => .pure hh

theorem passes_scene (id : String) :
    PassesOn t task n (bearing t) (t.toEnduring.on (·.cache)) (scene id) :=
  (passes_handle fun _ => passes_onScenes (Collection.passes_get id _)).bind fun _ _ _ hh => .pure hh

theorem passes_sensor (id : Int32) :
    PassesOn t task n (bearing t) (t.toEnduring.on (·.cache)) (sensor id) :=
  (passes_handle fun _ => passes_onSensors (Collection.passes_get id _)).bind fun _ _ _ hh => .pure hh

/-- Whatever a bridge is switched to, its connection is a new one. -/
theorem passes_switch (config : Bridge → Config) (transport : Bridge → TransportId) :
    PassesOn t task n (bearing t) .any (do
      let b ← ActOn.current
      ActOn.become (← connect (config b) (transport b)) : ActOn Bridge Unit) :=
  PassesOn.current.bind fun _ _ _ _ =>
    (PassesOn.lift (passes_connect _ _)).bind fun _ _ _ hb => PassesOn.become hb

theorem passes_pair : PassesOn t task n (bearing t) .any pair := by
  refine PassesOn.current.bind fun b _ _ _ => ?_
  refine (PassesOn.lift (.of_plays Act.plays_now)).bind fun started _ _ _ => ?_
  refine (PassesOn.lift (.of_plays (Act.plays_waiting _ _ _))).bind fun prepared k _ _ => ?_
  have hask := Pairing.plays_ask (P := task.Admits k.roots) Task.admitsIdle b.config
    (Task.channelUsed (b.connection.channel.asUser "")) started (Pairing.enough b.config prepared)
  refine (PassesOn.lift (.of_plays hask)).bind fun ending _ _ _ => ?_
  cases ending with
  | timeout | unfinished => exact .pure trivial
  | user username => exact (passes_switch _ _).told

end Bridge

/-- A change of a resource has a view of its own below the resource's cache. -/
theorem Handle.passes_change {ι : Type} {h : Handle ι} (hh : t.At n h.cache) (key path : String) :
    Act.Passes t task n (t.toEnduring.all.on (·.cache.toList)) (h.change key path) := by
  refine (Cache.passes_newChild hh key).bind fun cache _ _ hcache => ?_
  refine (Cache.passes_value hcache).bind fun baseline _ hm _ => .pure fun c hc => ?_
  rw [List.mem_singleton.mp hc]
  exact t.mono hm hcache

end LightBridge
