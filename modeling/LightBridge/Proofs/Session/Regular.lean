import LightBridge.Proofs.Bridge.Regular
import LightBridge.Proofs.Session.Fetches

/-!
# Regular collections of a session

The collections of a session are regular from the start, and every command keeps them so.
-/

namespace LightBridge

/-! ## Collections of any kind -/

namespace Registry

variable {w : World}

/-- The collection is regular. -/
def Regular : Registry → Prop
  | numbered l | groups l => l.Regular
  | named l => l.Regular

/-- What a collection of one kind keeps, any collection keeps. -/
theorem regular_after_rebuild {σ α : Type} {I : σ → Prop} {make : σ → Registry} {x : ActOn σ α}
    {y : ActOn Registry α} {l : σ} (hx : Keeps I (fun _ => True) x)
    (hmake : ∀ l, I l → (make l).Regular) (hl : I l) (h : y (make l, w) = rebuild make (x (l, w))) :
    (after y (make l, w)).1.Regular := by
  rw [after_rebuild h]
  exact hmake _ (hx (l, w) hl).1

theorem keeps_perform (plain : Bool) (operation : Collection.Operation Key) :
    Keeps Regular (fun _ => True) (perform plain operation) := by
  rintro ⟨r, w⟩ hr
  refine ⟨?_, fun _ _ _ => trivial⟩
  cases r with
  | numbered l =>
    exact regular_after_rebuild ((Collection.keeps_perform _).map fun _ _ => trivial)
      (fun _ h => h) hr rfl
  | named l =>
    exact regular_after_rebuild ((Collection.keeps_perform _).map fun _ _ => trivial)
      (fun _ h => h) hr rfl
  | groups l =>
    cases plain with
    | true =>
      exact regular_after_rebuild ((Collection.keeps_perform _).map fun _ _ => trivial)
        (fun _ h => h) hr rfl
    | false =>
      exact regular_after_rebuild ((Groups.keeps_perform _).map fun _ _ => trivial)
        (fun _ h => h) hr rfl

theorem keeps_entryCache (id : Key) : Keeps Regular (fun _ => True) (entryCache id) := by
  rintro ⟨r, w⟩ hr
  refine ⟨?_, fun _ _ _ => trivial⟩
  cases r with
  | numbered l =>
    exact regular_after_rebuild ((Collection.keeps_get _).map fun _ _ => trivial)
      (fun _ h => h) hr rfl
  | named l =>
    exact regular_after_rebuild ((Collection.keeps_get _).map fun _ _ => trivial)
      (fun _ h => h) hr rfl
  | groups l =>
    exact regular_after_rebuild ((Groups.keeps_get _).map fun _ _ => trivial)
      (fun _ h => h) hr rfl

end Registry

/-! ## Workspaces -/

namespace Workspace

variable {I : Workspace → Prop}

/-- Every collection of the workspace is regular. -/
def Regular (s : Workspace) : Prop := s.lists.All Registry.Regular

theorem keeps_channel (name : String) : Keeps I (fun _ => True) (channel name) :=
  Keeps.here.bind fun _ _ => .found fun _ _ => trivial

theorem keeps_cache (name : String) : Keeps I (fun _ => True) (cache name) :=
  Keeps.here.bind fun _ _ => .found fun _ _ => trivial

theorem keeps_list (name : String) : Keeps I (fun _ => True) (list name) :=
  Keeps.here.bind fun _ _ => .found fun _ _ => trivial

theorem keeps_change (name : String) : Keeps I (fun _ => True) (change name) :=
  Keeps.here.bind fun _ _ => .found fun _ _ => trivial

/-- Other things than collections may be kept and dropped. -/
theorem keeps_elsewhere {f : Workspace → Workspace} (hf : ∀ s, (f s).lists = s.lists) :
    Keeps Regular (fun _ => True) (Step.update f) := by
  refine .update fun s hs => ?_
  rw [Regular, hf]
  exact hs

theorem keeps_onList {α : Type} (name : String) {x : ActOn Registry α}
    (hx : Keeps Registry.Regular (fun _ => True) x) :
    Keeps Regular (fun _ => True) (onList name x) := by
  rintro ⟨s, w⟩ hs
  refine ⟨?_, fun _ _ _ => trivial⟩
  cases hlist : s.lists.get? name with
  | none =>
    simp only [after, onList, hlist]
    exact hs
  | some l =>
    have hl := (hx (l, w) (hs name l hlist)).1
    cases h : x (l, w) with
    | ok a s' =>
      rw [after_of_ok h] at hl
      simp only [after, onList, hlist, h]
      exact Table.All.set hs name hl
    | error e s' =>
      rw [after_of_error h] at hl
      simp only [after, onList, hlist, h]
      exact Table.All.set hs name hl

theorem keeps_makeList {ι : Type} [DecidableEq ι] [ResourceId ι] (channel : Channel) (path : String)
    (source : Source) :
    Keeps I Collection.Regular (makeList channel path source : Step Workspace (Collection ι)) := by
  cases source with
  | ownRoot interval =>
    refine .liftStep fun w l w' h => ?_
    cases h
    exact .ofCache ..
  | below parent key =>
    refine (keeps_cache parent).bind fun c _ => .liftStep fun w l w' h => ?_
    cases h
    exact .ofCache ..

theorem keeps_perform (command : Command) :
    Keeps Regular (fun _ => True) (perform command) := by
  cases command with
  | advance d => exact (Keeps.actStep _).told
  | prepare line => exact Keeps.here.bind fun s _ => (Keeps.actStep _).told
  | request via method path body => exact (keeps_channel via).bind fun c _ => (Keeps.actStep _).told
  | newChannel name via username =>
    exact (keeps_channel via).bind fun c _ => .told (keeps_elsewhere fun _ => rfl)
  | uri via path => exact (keeps_channel via).told
  | channelInfo via => exact (keeps_channel via).bind fun c _ => (Keeps.actStep _).told
  | newRoot name via path interval =>
    refine (keeps_channel via).bind fun c _ => (Keeps.actStep _).bind fun cache _ => ?_
    exact .told (keeps_elsewhere fun _ => rfl)
  | newChild name parent key =>
    refine (keeps_cache parent).bind fun c _ => (Keeps.actStep _).bind fun cache _ => ?_
    exact .told (keeps_elsewhere fun _ => rfl)
  | share name other => exact (keeps_cache other).bind fun c _ => .told (keeps_elsewhere fun _ => rfl)
  | listCache name other =>
    exact (keeps_list other).bind fun r _ => .told (keeps_elsewhere fun _ => rfl)
  | entryCache name other id =>
    refine (keeps_onList other (Registry.keeps_entryCache id)).bind fun c _ => ?_
    exact .told (keeps_elsewhere fun _ => rfl)
  | onCache name operation => exact (keeps_cache name).bind fun c _ => (Keeps.actStep _).told
  | update name field value => exact (keeps_cache name).bind fun c _ => (Keeps.actStep _).told
  | dropCache name | dropChange name =>
    exact Keeps.here.bind fun s _ => .told (keeps_elsewhere fun _ => rfl)
  | dropList name =>
    exact Keeps.here.bind fun s _ => (Keeps.update fun _ hs => Table.All.erase hs name).told
  | newList name via kind path source =>
    refine (keeps_channel via).bind fun c _ => ?_
    have hkeep (r : Registry) (hr : r.Regular) : Keeps Regular (fun _ => True) (do
        Step.update fun s => { s with lists := s.lists.set name r }
        pure Answer.nothing : Step Workspace Answer) :=
      .told (.update fun _ hs => Table.All.set hs name hr)
    cases kind with
    | numbered | named | groups =>
      refine .bind (.map (keeps_makeList c path source) ?_) hkeep
      exact fun _ h => h
  | onList name plain operation =>
    exact (keeps_onList name (Registry.keeps_perform plain operation)).told
  | newChange name via path cacheName baseline =>
    refine (keeps_channel via).bind fun c _ => ?_
    have hrest (cache : Option Cache) : Keeps Regular (fun _ => True) (do
        let baseline ← baselineOf cache baseline
        keepChange name (.start c path baseline cache)
        pure Answer.nothing : Step Workspace Answer) :=
      (Keeps.actStep _).bind fun _ _ => .told (keeps_elsewhere fun _ => rfl)
    cases cacheName with
    | some other =>
      refine .bind (.map (keeps_cache other) ?_) fun cache (_ : True) => hrest cache
      exact fun _ _ => trivial
    | none => exact hrest none
  | onChange name operation =>
    exact (keeps_change name).bind fun c _ => .told (keeps_elsewhere fun _ => rfl)
  | commit name =>
    refine (keeps_change name).bind fun c _ => ?_
    exact .bind (keeps_elsewhere fun _ => rfl) fun _ _ => (Keeps.actStep _).told

/-- A new workspace has no collections, and nothing that could be held. -/
theorem start_regular {address : String} {port : UInt16} {username : String} {minDelay : Duration}
    {script : Script} {w w' : World} {s : Workspace}
    (h : start address port username minDelay script w = .ok s w') :
    s.Regular ∧ ∀ node ∈ held s, w'.holds node = true := by
  have hrun : start address port username minDelay script w = .ok _ _ := rfl
  cases hrun.symm.trans h
  exact ⟨Table.All.empty, fun _ hnode => absurd hnode List.not_mem_nil⟩

end Workspace

/-! ## Bridges -/

namespace Bridge

variable {α : Type} {Q : α → Prop}

theorem keeps_onSection {x : ActOn (Collection Int32) α} (which : Section)
    (hx : Keeps Collection.Regular Q x) : Keeps Regular Q (onSection which x) := by
  cases which with
  | lights => exact keeps_onLights hx
  | groups => exact keeps_onGroups hx
  | schedules => exact keeps_onSchedules hx
  | sensors => exact keeps_onSensors hx

theorem keeps_performOn (which : Section) (operation : Collection.Operation Int32) :
    Keeps Collection.Regular (fun _ => True) (performOn which operation) := by
  cases which with
  | lights | schedules => exact Collection.keeps_perform operation
  | groups => exact Groups.keeps_perform operation
  | sensors =>
    have hplain := Collection.keeps_perform operation
    cases operation with
    | describe => exact Collection.keeps_reading _
    | _ => exact hplain

theorem keeps_entry (which : Section) (id : Int32) :
    Keeps Regular (fun _ => True) (entry which id) := by
  refine keeps_onSection which ?_
  split
  · exact Groups.keeps_get id
  · exact Collection.keeps_get id

end Bridge

namespace BridgeSession

variable {α : Type} {Q : α → Prop}

/-- Every collection of the session is regular. -/
def Regular (s : BridgeSession) : Prop := s.bridge.Regular

theorem keeps_onBridge {x : ActOn Bridge α} (hx : Keeps Bridge.Regular Q x) :
    Keeps Regular Q (onBridge x) :=
  hx.within (fun _ hs => hs) fun _ _ _ hb => hb

theorem keeps_asking (f : Bridge → Act α) : Keeps Regular (fun _ => True) (asking f) :=
  .ofActOn (Keeps.current.bind fun s _ => .act (f s.bridge))

theorem keeps_withHandle {η : Type} {get : ActOn Bridge η} (perform : η → α → Act Reading)
    (hget : Keeps Bridge.Regular (fun _ => True) get) (calls : List (Timed α)) :
    Keeps Regular (fun _ => True) (withHandle get perform calls) :=
  (Keeps.liftActOn (keeps_onBridge hget)).bind fun _ _ => (Keeps.actStep _).told

/-- Caches and changes may be kept beside the bridge, and dropped. -/
theorem keeps_beside {f : BridgeSession → BridgeSession} (hf : ∀ s, (f s).bridge = s.bridge) :
    Keeps Regular (fun _ => True) (Step.update f) := by
  refine .update fun s hs => ?_
  rw [Regular, hf]
  exact hs

theorem keeps_change (name : String) : Keeps Regular (fun _ => True) (change name) :=
  Keeps.here.bind fun _ _ => .found fun _ _ => trivial

theorem keeps_perform (command : Command) : Keeps Regular (fun _ => True) (perform command) := by
  cases command with
  | advance d => exact (Keeps.actStep _).told
  | prepare line | info | onState operation =>
    exact Keeps.here.bind fun s _ => (Keeps.actStep _).told
  | name | apiVersion => exact (keeps_asking _).map fun _ _ => trivial
  | refresh => exact (keeps_asking _).told
  | config => exact Keeps.here.told
  | setUsername username => exact .told (.liftActOn (keeps_onBridge (Bridge.keeps_switch _ _)))
  | setTransport lines =>
    refine Keeps.here.bind fun s _ => (Keeps.actStep _).bind fun latency _ => ?_
    refine (Keeps.actStep _).bind fun transport _ => ?_
    exact .told (.liftActOn (keeps_onBridge (Bridge.keeps_switch _ _)))
  | pair =>
    refine (Keeps.ofActOn (keeps_onBridge Bridge.keeps_pair)).bind fun ending _ => ?_
    cases ending with
    | user username => exact .pure _ trivial
    | timeout => exact Keeps.here.bind fun _ _ => .throw _
    | unfinished => exact .throw _
  | onSection which operation =>
    have hsection := Bridge.keeps_onSection which (Bridge.keeps_performOn which operation)
    exact .told (.liftActOn (keeps_onBridge hsection))
  | onScenes operation =>
    have hscenes := Bridge.keeps_onScenes (Collection.keeps_perform operation)
    exact .told (.liftActOn (keeps_onBridge hscenes))
  | sensorsOfKind kind =>
    have hsensors := Bridge.keeps_onSensors (Sensors.keeps_getAllOfKind kind)
    exact .told (.ofActOn (keeps_onBridge hsensors))
  | withLight id calls => exact keeps_withHandle _ (Bridge.keeps_light id) calls
  | withGroup id calls => exact keeps_withHandle _ (Bridge.keeps_group id) calls
  | withSchedule id calls => exact keeps_withHandle _ (Bridge.keeps_schedule id) calls
  | withScene id calls => exact keeps_withHandle _ (Bridge.keeps_scene id) calls
  | withSensor id calls => exact keeps_withHandle _ (Bridge.keeps_sensor id) calls
  | keepSection name which | keepScenes name =>
    exact Keeps.here.bind fun s _ => .told (keeps_beside fun _ => rfl)
  | keepEntry name which id =>
    refine (Keeps.liftActOn (keeps_onBridge (Bridge.keeps_entry which id))).bind fun r _ => ?_
    exact .told (keeps_beside fun _ => rfl)
  | keepScene name id =>
    have hscene := Bridge.keeps_onScenes (Collection.keeps_get id)
    exact (Keeps.liftActOn (keeps_onBridge hscene)).bind fun r _ => .told (keeps_beside fun _ => rfl)
  | onKept name operation =>
    refine Keeps.here.bind fun s _ => ?_
    refine (Keeps.found (Q := fun _ => True) fun _ _ => trivial).bind fun c _ => ?_
    exact (Keeps.actStep _).told
  | changeLight name id =>
    refine (Keeps.liftActOn (keeps_onBridge (Bridge.keeps_light id))).bind fun light _ => ?_
    refine (Keeps.ofActOn (.act _)).bind fun c _ => ?_
    exact .told (keeps_beside fun _ => rfl)
  | changeGroup name id =>
    refine (Keeps.liftActOn (keeps_onBridge (Bridge.keeps_group id))).bind fun group _ => ?_
    refine (Keeps.ofActOn (.act _)).bind fun c _ => ?_
    exact .told (keeps_beside fun _ => rfl)
  | onChange name operation =>
    exact (keeps_change name).bind fun c _ => .told (keeps_beside fun _ => rfl)
  | commit name =>
    refine (keeps_change name).bind fun c _ => ?_
    exact .bind (keeps_beside fun _ => rfl) fun _ _ => (Keeps.actStep _).told

theorem start_regular {config : Config} {script : Script} {w w' : World} {s : BridgeSession}
    (h : start config script w = .ok s w') :
    s.Regular ∧ ∀ node ∈ held s, w'.holds node = true := by
  obtain ⟨transport, u, -, hrest⟩ := exists_of_bind_ok h
  obtain ⟨b, u', hconnect, hlast⟩ := exists_of_bind_ok hrest
  cases hlast
  obtain ⟨hregular, hheld⟩ := Bridge.connect_regular hconnect
  refine ⟨hregular, fun node hnode => hheld node ?_⟩
  -- nothing is kept beside the bridge yet
  simpa [held, Table.values, Table.empty] using hnode

end BridgeSession

end LightBridge
