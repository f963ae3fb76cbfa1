import LightBridge.Bridge.Pairing
import LightBridge.Proofs.Resource.Regular

/-!
# Regular collections of a bridge

All that is read through a connection are collections that start without entries. Acting on one of
them leaves the others alone, and a switch to another user or transport makes new ones.
-/

namespace LightBridge

/-- Every collection that is read through the connection is regular. -/
structure Connection.Regular (x : Connection) : Prop where
  lights : x.lights.Regular
  groups : x.groups.Regular
  schedules : x.schedules.Regular
  scenes : x.scenes.Regular
  sensors : x.sensors.Regular

namespace Bridge

variable {α : Type} {Q : α → Prop}

/-- Every collection of the bridge is regular. -/
def Regular (b : Bridge) : Prop := b.connection.Regular

/-- A new connection has collections without entries, and what it holds is held. -/
theorem connect_regular {config : Config} {transport : TransportId} {w w' : World} {b : Bridge}
    (h : connect config transport w = .ok b w') :
    b.Regular ∧ ∀ node ∈ b.held, w'.holds node = true := by
  have hrun : connect config transport w = .ok _ _ := rfl
  cases hrun.symm.trans h
  refine ⟨⟨.ofCache .., .ofCache .., .ofCache .., .ofCache .., .ofCache ..⟩, fun node hnode => ?_⟩
  -- the first name is the slot's, and the six after it are the nodes'
  have hnodes : node ∈ [1, 2, 3, 4, 5, 6].map (w.fresh + ·) := hnode
  have hheld : node ∈ [6, 5, 4, 3, 2, 1].map (w.fresh + ·) ++ w.held := by
    refine List.mem_append_left _ ?_
    rw [← List.mem_reverse, ← List.map_reverse]
    exact hnodes
  exact List.contains_iff_mem.mpr hheld

theorem keeps_onLights {x : ActOn (Collection Int32) α} (hx : Keeps Collection.Regular Q x) :
    Keeps Regular Q (onLights x) :=
  hx.within (fun _ hb => hb.lights) fun _ _ hb hl => { hb with lights := hl }

theorem keeps_onGroups {x : ActOn (Collection Int32) α} (hx : Keeps Collection.Regular Q x) :
    Keeps Regular Q (onGroups x) :=
  hx.within (fun _ hb => hb.groups) fun _ _ hb hl => { hb with groups := hl }

theorem keeps_onSchedules {x : ActOn (Collection Int32) α} (hx : Keeps Collection.Regular Q x) :
    Keeps Regular Q (onSchedules x) :=
  hx.within (fun _ hb => hb.schedules) fun _ _ hb hl => { hb with schedules := hl }

theorem keeps_onScenes {x : ActOn (Collection String) α} (hx : Keeps Collection.Regular Q x) :
    Keeps Regular Q (onScenes x) :=
  hx.within (fun _ hb => hb.scenes) fun _ _ hb hl => { hb with scenes := hl }

theorem keeps_onSensors {x : ActOn (Collection Int32) α} (hx : Keeps Collection.Regular Q x) :
    Keeps Regular Q (onSensors x) :=
  hx.within (fun _ hb => hb.sensors) fun _ _ hb hl => { hb with sensors := hl }

theorem keeps_handle {ι : Type} {find : ActOn Bridge (Resource ι)}
    (hfind : Keeps Regular (fun _ => True) find) : Keeps Regular (fun _ => True) (handle find) :=
  hfind.bind fun _ _ => Keeps.current.told

theorem keeps_light (id : Int32) : Keeps Regular (fun _ => True) (light id) :=
  .told (keeps_handle (keeps_onLights (Collection.keeps_get id)))

theorem keeps_group (id : Int32) : Keeps Regular (fun _ => True) (group id) :=
  .told (keeps_handle (keeps_onGroups (Groups.keeps_get id)))

theorem keeps_schedule (id : Int32) : Keeps Regular (fun _ => True) (schedule id) :=
  .told (keeps_handle (keeps_onSchedules (Collection.keeps_get id)))

theorem keeps_scene (id : String) : Keeps Regular (fun _ => True) (scene id) :=
  .told (keeps_handle (keeps_onScenes (Collection.keeps_get id)))

theorem keeps_sensor (id : Int32) : Keeps Regular (fun _ => True) (sensor id) :=
  .told (keeps_handle (keeps_onSensors (Collection.keeps_get id)))

/-- Whatever a bridge is switched to, its connection is a new one. -/
theorem keeps_switch (config : Bridge → Config) (transport : Bridge → TransportId) :
    Keeps Regular (fun _ => True) (do
      let b ← ActOn.current
      ActOn.become (← connect (config b) (transport b)) : ActOn Bridge Unit) := by
  refine Keeps.current.bind fun b _ => ?_
  refine (Keeps.lift (Q := Regular) fun w b' w' h => ?_).bind fun b' hb' => .become hb'
  exact (connect_regular h).1

theorem keeps_pair : Keeps Regular (fun _ => True) pair := by
  refine Keeps.current.bind fun b _ => (Keeps.act _).bind fun started _ => ?_
  refine (Keeps.act _).bind fun prepared _ => (Keeps.act _).bind fun ending _ => ?_
  cases ending with
  | timeout | unfinished => exact .pure _ trivial
  | user username => exact .told (keeps_switch _ _)

end Bridge

end LightBridge
