import LightBridge.Bridge.Pairing
import LightBridge.Proofs.Handle.Play

/-!
# What a bridge does to a world

Between two switches of its user or transport, a bridge sends through the channel of its connection
only: the cache of the whole state, the collections and the handles all use that one.
-/

namespace LightBridge

variable {C : Channel → Prop}

/-- A connection, and everything that is read through it, uses channels in `C` only. -/
structure Connection.Over (C : Channel → Prop) (x : Connection) : Prop where
  channel : C x.channel
  state : x.state.Over C
  lights : x.lights.Over C
  groups : x.groups.Over C
  schedules : x.schedules.Over C
  scenes : x.scenes.Over C
  sensors : x.sensors.Over C

theorem Connection.Over.mono {D : Channel → Prop} {x : Connection} (hx : x.Over C)
    (h : ∀ c, C c → D c) : x.Over D :=
  ⟨h _ hx.channel, h _ hx.state, hx.lights.mono h, hx.groups.mono h, hx.schedules.mono h,
    hx.scenes.mono h, hx.sensors.mono h⟩

/-- Two configurations lead to the same bridge, at the same pace. -/
structure Config.SameTarget (a b : Config) : Prop where
  address : a.address = b.address
  port : a.port = b.port
  minDelay : a.minDelay = b.minDelay

theorem Config.SameTarget.withUsername {a b : Config} (h : a.SameTarget b) (username : String) :
    (a.withUsername username).SameTarget b :=
  ⟨h.address, h.port, h.minDelay⟩

namespace Bridge

variable {config : Config} {α : Type} {P : World → Deed → Prop} {Q : α → Prop}

/-- A bridge for the target of `config`, whose connection uses channels in `C` only. -/
structure Over (config : Config) (C : Channel → Prop) (b : Bridge) : Prop where
  target : b.config.SameTarget config
  connection : b.connection.Over C

/-! ## Reading -/

theorem plays_aboutItself (hidle : AdmitsIdle P) {b : Bridge} (hb : b.connection.state.Used P)
    (key : String) : Act.Plays P (fun _ => True) (b.aboutItself key) := by
  refine (Cache.plays_newChild hidle b.connection.state "config").bind fun cache hchild => ?_
  have hcache : cache.Used P := by
    obtain ⟨node, rfl⟩ := hchild
    exact hb
  exact (Cache.plays_value hcache).bind fun about _ => .pure _ trivial

/-! ## Collections -/

theorem plays_onLights {x : ActOn (Collection Int32) α}
    (hx : PlaysOn P (Collection.Over C) Q x) : PlaysOn P (Over config C) Q (onLights x) :=
  hx.within (fun _ hb => hb.connection.lights) fun _ _ hb hl =>
    ⟨hb.target, { hb.connection with lights := hl }⟩

theorem plays_onGroups {x : ActOn (Collection Int32) α}
    (hx : PlaysOn P (Collection.Over C) Q x) : PlaysOn P (Over config C) Q (onGroups x) :=
  hx.within (fun _ hb => hb.connection.groups) fun _ _ hb hl =>
    ⟨hb.target, { hb.connection with groups := hl }⟩

theorem plays_onSchedules {x : ActOn (Collection Int32) α}
    (hx : PlaysOn P (Collection.Over C) Q x) : PlaysOn P (Over config C) Q (onSchedules x) :=
  hx.within (fun _ hb => hb.connection.schedules) fun _ _ hb hl =>
    ⟨hb.target, { hb.connection with schedules := hl }⟩

theorem plays_onScenes {x : ActOn (Collection String) α}
    (hx : PlaysOn P (Collection.Over C) Q x) : PlaysOn P (Over config C) Q (onScenes x) :=
  hx.within (fun _ hb => hb.connection.scenes) fun _ _ hb hl =>
    ⟨hb.target, { hb.connection with scenes := hl }⟩

theorem plays_onSensors {x : ActOn (Collection Int32) α}
    (hx : PlaysOn P (Collection.Over C) Q x) : PlaysOn P (Over config C) Q (onSensors x) :=
  hx.within (fun _ hb => hb.connection.sensors) fun _ _ hb hl =>
    ⟨hb.target, { hb.connection with sensors := hl }⟩

/-! ## Handles -/

theorem plays_handle {ι : Type} {find : ActOn Bridge (Resource ι)}
    (hfind : PlaysOn P (Over config C) (fun r => r.cache.Over C) find) :
    PlaysOn P (Over config C) (Handle.Over C) (handle find) := by
  refine hfind.bind fun r hr => ?_
  exact PlaysOn.current.bind fun b hb => .pure _ ⟨hr, hb.connection.channel⟩

theorem plays_light (hP : Covers P C) (id : Int32) :
    PlaysOn P (Over config C) (fun l => l.toHandle.Over C) (light id) :=
  (plays_handle (plays_onLights (Collection.plays_get hP id))).bind fun _ hh => .pure _ hh

theorem plays_group (hP : Covers P C) (id : Int32) :
    PlaysOn P (Over config C) (fun g => g.toHandle.Over C) (group id) :=
  (plays_handle (plays_onGroups (Groups.plays_get hP id))).bind fun _ hh => .pure _ hh

theorem plays_schedule (hP : Covers P C) (id : Int32) :
    PlaysOn P (Over config C) (fun s => s.toHandle.Over C) (schedule id) :=
  (plays_handle (plays_onSchedules (Collection.plays_get hP id))).bind fun _ hh => .pure _ hh

theorem plays_scene (hP : Covers P C) (id : String) :
    PlaysOn P (Over config C) (fun s => s.toHandle.Over C) (scene id) :=
  (plays_handle (plays_onScenes (Collection.plays_get hP id))).bind fun _ hh => .pure _ hh

theorem plays_sensor (hP : Covers P C) (id : Int32) :
    PlaysOn P (Over config C) (fun s => s.toHandle.Over C) (sensor id) :=
  (plays_handle (plays_onSensors (Collection.plays_get hP id))).bind fun _ hh => .pure _ hh

end Bridge

/-! ## Pairing -/

theorem Pairing.plays_ask {P : World → Deed → Prop} (hidle : AdmitsIdle P) (config : Config)
    {channel : Channel} (hchannel : channel.Used P) (started : Instant) (attempts : Nat) :
    Act.Plays P (fun _ => True) (ask config channel started attempts) := by
  -- on the number of questions that are left; each is one request and perhaps a wait
  induction attempts with
  | zero => exact .pure _ trivial
  | succ attempts ih =>
    refine (Channel.plays_request_of_used hchannel (by decide) "" (body config)).bind fun reply _ => ?_
    refine (Act.plays_ofExcept (Q := fun _ => True) (judge reply) fun _ _ => trivial).bind
      fun verdict _ => ?_
    cases verdict with
    | some username => exact .pure _ trivial
    | none =>
      refine Act.plays_now.bind fun now _ => ?_
      split
      · exact .pure _ trivial
      · exact (Act.plays_wait config.pairingInterval hidle.pass).andThen ih

end LightBridge
