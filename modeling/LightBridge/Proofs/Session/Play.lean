import LightBridge.Proofs.Bridge.Reconnect
import LightBridge.Session.BridgeSession

/-!
# What the commands of a session do to a world

Three commands make the bridge open another connection: switching the user, switching the transport,
and pairing. All others use the connections that are there.
-/

namespace LightBridge.BridgeSession

variable {C : Channel → Prop} {p : Scope} {config : Config} {α : Type} {Q : α → Prop} {P : World → Deed → Prop}

/-- The bridge of a session is one for the target of `config`, and everything in the session uses
channels in `C` only. -/
structure Over (config : Config) (C : Channel → Prop) (s : BridgeSession) : Prop where
  bridge : s.bridge.Over config C
  kept : s.kept.All (Cache.Over C)
  changes : s.changes.All fun c => C c.channel

namespace Over

variable {s : BridgeSession}

theorem withBridge {D : Channel → Prop} (hs : s.Over config C) (h : ∀ c, C c → D c) {b : Bridge}
    (hb : b.Over config D) : Over config D { s with bridge := b } :=
  ⟨hb, hs.kept.mono fun _ hc => h _ hc, hs.changes.mono fun _ hc => h _ hc⟩

theorem keep (hs : s.Over config C) (name : String) {c : Cache} (hc : c.Over C) :
    Over config C { s with kept := s.kept.set name c } :=
  ⟨hs.bridge, hs.kept.set name hc, hs.changes⟩

theorem keepChange (hs : s.Over config C) (name : String) {c : Change} (hc : C c.channel) :
    Over config C { s with changes := s.changes.set name c } :=
  ⟨hs.bridge, hs.kept, hs.changes.set name hc⟩

theorem dropChange (hs : s.Over config C) (name : String) :
    Over config C { s with changes := s.changes.erase name } :=
  ⟨hs.bridge, hs.kept, hs.changes.erase name⟩

end Over

/-! ## Acting on the parts of a session -/

theorem plays_onBridge {x : ActOn Bridge α} (hx : PlaysOn P (Bridge.Over config p.channel) Q x) :
    PlaysOn P (Over config p.channel) Q (onBridge x) :=
  hx.within (fun _ hs => hs.bridge) fun _ _ hs hb => hs.withBridge (fun _ hc => hc) hb

theorem plays_asking {f : Bridge → Act α}
    (hf : ∀ b : Bridge, b.Over config p.channel → Act.Plays p.Admits Q (f b)) :
    PlaysOn p.Admits (Over config p.channel) Q (asking f) :=
  PlaysOn.ofActOn (PlaysOn.current.bind fun s hs => PlaysOn.lift (hf s.bridge hs.bridge))

theorem plays_performOn (which : Bridge.Section) (operation : Collection.Operation Int32) :
    PlaysOn p.Admits (Collection.Over p.channel) (fun _ => True)
      (Bridge.performOn which operation) := by
  cases which with
  | lights => exact Collection.plays_perform p.covers operation
  | groups => exact Groups.plays_perform p.covers operation
  | schedules => exact Collection.plays_perform p.covers operation
  | sensors =>
    -- sensors describe themselves in their own way, and are else like any collection
    have hplain := Collection.plays_perform p.covers operation
    cases operation with
    | describe => exact Collection.plays_reading fun _ _ => .pure _ trivial
    | _ => exact hplain

theorem plays_onSection {x : ActOn (Collection Int32) α} (which : Bridge.Section)
    (hx : PlaysOn P (Collection.Over p.channel) Q x) :
    PlaysOn P (Bridge.Over config p.channel) Q (Bridge.onSection which x) := by
  cases which with
  | lights => exact Bridge.plays_onLights hx
  | groups => exact Bridge.plays_onGroups hx
  | schedules => exact Bridge.plays_onSchedules hx
  | sensors => exact Bridge.plays_onSensors hx

theorem plays_entry (which : Bridge.Section) (id : Int32) :
    PlaysOn p.Admits (Bridge.Over config p.channel) (fun r => r.cache.Over p.channel)
      (Bridge.entry which id) := by
  refine plays_onSection which ?_
  split
  · exact Groups.plays_get p.covers id
  · exact Collection.plays_get p.covers id

theorem over_sectionCache {b : Bridge} (hb : b.Over config C) (which : Bridge.Section) :
    (b.sectionCache which).Over C := by
  cases which with
  | lights => exact hb.connection.lights.cache
  | groups => exact hb.connection.groups.cache
  | schedules => exact hb.connection.schedules.cache
  | sensors => exact hb.connection.sensors.cache

/-! ## Handles -/

theorem after_observe {x : Act α} (w : World) : after (Act.observe x) w = after x w := by
  cases h : x w <;> simp only [after, Act.observe, h]

theorem plays_readings (hidle : AdmitsIdle P) {perform : α → Act Reading} {calls : List (Timed α)}
    (hperform : ∀ a, .operation a ∈ calls → Act.Plays P (fun _ => True) (perform a)) :
    Act.Plays P (fun _ => True) (readings perform calls) := by
  induction calls with
  | nil => exact .pure [] trivial
  | cons call rest ih =>
    have hrest := ih fun a ha => hperform a (List.mem_cons_of_mem call ha)
    cases call with
    | operation a =>
      refine ((hperform a List.mem_cons_self).of_after_eq after_observe).bind fun seen _ => ?_
      exact hrest.bind fun _ _ => .pure _ trivial
    | advance d =>
      have hwait : Act.Plays P (fun _ => True) (do Act.wait d; pure Reading.nothing) :=
        (Act.plays_wait d hidle.pass).andThen (.pure _ trivial)
      refine (hwait.of_after_eq after_observe).bind fun seen _ => ?_
      exact hrest.bind fun _ _ => .pure _ trivial

theorem plays_withHandle {η : Type} {get : ActOn Bridge η} {perform : η → α → Act Reading}
    {R : η → Prop} (hget : PlaysOn p.Admits (Bridge.Over config p.channel) R get)
    (hperform : ∀ handle, R handle → ∀ a,
      Act.Plays p.Admits (fun _ => True) (perform handle a)) (calls : List (Timed α)) :
    PlaysOn p.Admits (Over config p.channel) (fun _ => True) (withHandle get perform calls) := by
  refine (PlaysOn.liftActOn (plays_onBridge hget)).bind fun handle hhandle => ?_
  refine (PlaysOn.liftStep (plays_readings p.admitsIdle fun a _ => ?_)).bind
    fun _ _ => .pure _ trivial
  exact hperform handle hhandle a

/-! ## Names -/

theorem plays_keep (name : String) {c : Cache} (hc : c.Over p.channel) :
    PlaysOn P (Over config p.channel) (fun _ => True) (keep name c) :=
  (PlaysOn.update fun _ hs => hs.keep name hc).andThen (.pure _ trivial)

theorem plays_keepChange (name : String) {c : Change} (hc : p.channel c.channel) :
    PlaysOn P (Over config p.channel) (fun _ => True) (keepChange name c) :=
  (PlaysOn.update fun _ hs => hs.keepChange name hc).andThen (.pure _ trivial)

theorem plays_change (name : String) :
    PlaysOn P (Over config p.channel) (fun c => p.channel c.channel) (change name) :=
  PlaysOn.here.bind fun _ hs => PlaysOn.found fun c hc => hs.changes name c hc

theorem channel_perform (c : Change) (operation : Change.Operation) :
    (c.perform operation).1.channel = c.channel := by
  cases operation with
  | set setters =>
    show (setters.foldl Change.set c).channel = c.channel
    induction setters generalizing c with
    | nil => rfl
    | cons s rest ih => exact ih (c.set s)
  | trim | pending => rfl

/-! ## Commands -/

/-- Whether a command may make the bridge open another connection. -/
def Command.reconnects : Command → Bool
  | .setUsername _ | .setTransport _ | .pair => true
  | _ => false

theorem plays_perform {command : Command} (hconnects : command.reconnects = false) :
    PlaysOn p.Admits (Over config p.channel) (fun _ => True) (perform command) := by
  cases command with
  | setUsername | setTransport | pair => nomatch hconnects
  | advance d =>
    exact (PlaysOn.liftStep (Act.plays_wait d fun _ _ => trivial)).andThen (.pure _ trivial)
  | prepare line =>
    refine PlaysOn.here.bind fun s _ => ?_
    refine (PlaysOn.liftStep (Act.plays_changeScript _ _ fun _ _ => trivial)).andThen ?_
    exact .pure _ trivial
  | info =>
    refine PlaysOn.here.bind fun s _ => ?_
    exact (PlaysOn.liftStep (Act.plays_nextAllowed _)).bind fun _ _ => .pure _ trivial
  | name | apiVersion =>
    exact (plays_asking fun _ hb =>
      Bridge.plays_aboutItself p.admitsIdle hb.connection.state.used _).map fun _ _ => trivial
  | refresh =>
    exact (plays_asking fun _ hb => Cache.plays_refresh hb.connection.state.refetched).andThen
      (.pure _ trivial)
  | config => exact PlaysOn.here.bind fun _ _ => .pure _ trivial
  | onState operation =>
    refine PlaysOn.here.bind fun s hs => ?_
    have hstate := hs.bridge.connection.state
    refine (PlaysOn.liftStep (Cache.plays_perform hstate.used fun _ => hstate.refetched)).bind
      fun _ _ => ?_
    exact .pure _ trivial
  | onSection which operation =>
    refine (PlaysOn.liftActOn (plays_onBridge ?_)).bind fun _ (_ : True) => .pure _ trivial
    exact plays_onSection which (plays_performOn which operation)
  | onScenes operation =>
    refine (PlaysOn.liftActOn (plays_onBridge ?_)).bind fun _ (_ : True) => .pure _ trivial
    exact Bridge.plays_onScenes (Collection.plays_perform p.covers operation)
  | sensorsOfKind kind =>
    refine (PlaysOn.ofActOn (plays_onBridge ?_)).bind fun _ (_ : True) => .pure _ trivial
    exact Bridge.plays_onSensors (Sensors.plays_getAllOfKind p.covers kind)
  | withLight id calls =>
    refine plays_withHandle (Bridge.plays_light p.covers id) (fun _ hh _ => ?_) calls
    exact Light.plays_perform hh.used (fun _ => hh.cache.refetched) fun _ _ _ _ => trivial
  | withGroup id calls =>
    exact plays_withHandle (Bridge.plays_group p.covers id)
      (fun _ hh _ => Group.plays_perform hh.used fun _ => hh.cache.refetched) calls
  | withSchedule id calls =>
    exact plays_withHandle (Bridge.plays_schedule p.covers id)
      (fun _ hh _ => Schedule.plays_perform hh.used fun _ => hh.cache.refetched) calls
  | withScene id calls =>
    exact plays_withHandle (Bridge.plays_scene p.covers id)
      (fun _ hh _ => Scene.plays_perform hh.used fun _ => hh.cache.refetched) calls
  | withSensor id calls =>
    exact plays_withHandle (Bridge.plays_sensor p.covers id)
      (fun _ hh _ => Sensor.plays_perform hh.used fun _ => hh.cache.refetched) calls
  | keepSection name which =>
    exact PlaysOn.here.bind fun s hs => plays_keep name (over_sectionCache hs.bridge which)
  | keepScenes name =>
    exact PlaysOn.here.bind fun s hs => plays_keep name hs.bridge.connection.scenes.cache
  | keepEntry name which id =>
    exact (PlaysOn.liftActOn (plays_onBridge (plays_entry which id))).bind fun r hr =>
      plays_keep name hr
  | keepScene name id =>
    refine (PlaysOn.liftActOn (plays_onBridge ?_)).bind fun r hr => plays_keep name hr
    exact Bridge.plays_onScenes (Collection.plays_get p.covers id)
  | onKept name operation =>
    refine PlaysOn.here.bind fun s hs => ?_
    refine (PlaysOn.found (Q := Cache.Over p.channel) fun c hc => hs.kept name c hc).bind fun c hc => ?_
    exact (PlaysOn.liftStep (Cache.plays_perform hc.used fun _ => hc.refetched)).bind
      fun _ _ => .pure _ trivial
  | changeLight name id =>
    refine (PlaysOn.liftActOn (plays_onBridge (Bridge.plays_light p.covers id))).bind
      fun light hlight => ?_
    refine (PlaysOn.ofActOn (PlaysOn.beside (Handle.plays_change hlight.used _ _))).bind
      fun c hc => plays_keepChange name ?_
    rw [hc.1]
    exact hlight.channel
  | changeGroup name id =>
    refine (PlaysOn.liftActOn (plays_onBridge (Bridge.plays_group p.covers id))).bind
      fun group hgroup => ?_
    refine (PlaysOn.ofActOn (PlaysOn.beside (Handle.plays_change hgroup.used _ _))).bind
      fun c hc => plays_keepChange name ?_
    rw [hc.1]
    exact hgroup.channel
  | onChange name operation =>
    refine (plays_change name).bind fun c hc => ?_
    have hperformed : p.channel (c.perform operation).1.channel := by rwa [channel_perform]
    exact (PlaysOn.update fun _ hs => hs.keepChange name hperformed).andThen (.pure _ trivial)
  | commit name =>
    -- the change is taken from the session before it is sent, so its name is free even on failure
    refine (plays_change name).bind fun c hc => ?_
    refine (PlaysOn.update fun _ hs => hs.dropChange name).andThen ?_
    have hcommit := Change.plays_commit_of_used (Scope.channelUsed hc) fun _ _ _ _ _ => trivial
    exact (PlaysOn.liftStep hcommit).bind fun _ _ => .pure _ trivial

end LightBridge.BridgeSession
