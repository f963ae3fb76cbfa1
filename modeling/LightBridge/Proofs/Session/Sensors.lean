import LightBridge.Proofs.Bridge.Connected
import LightBridge.Proofs.Json.WellFormed
import LightBridge.Proofs.Resource.Existence
import LightBridge.Proofs.Session.Reading
import LightBridge.Proofs.Twins.Itself

/-!
# Sensors of a type

The sensors of a type are found by two reads of the same state: the first one tells the ids of the
type, and the second one is a listing, which is then searched for these ids. When the state is served
for some time the second read sees what the first one saw; otherwise it may be another state, and
what is found has the types of the one and the sensors of the other.
-/

namespace LightBridge

namespace Sensors

open Collection (Reports Canonical Ordered Makes)

variable {fields typed listed : Fields} {kind : String} {id : Int32} {l l' : Collection Int32}
variable {w u w' : World} {found all : List (Resource Int32)}

/-! ## Ids of a type -/

/-- A state has an entry for an id, with a text that names the type. -/
def OfKind (fields : Fields) (kind : String) (id : Int32) : Prop :=
  ∃ field ∈ fields, ResourceId.ofKey? field.1 = some id ∧
    (field.2.get? "type").bind Json.string? = some kind

theorem mem_idsOfKind_iff : id ∈ idsOfKind fields kind ↔ OfKind fields kind id := by
  simp only [idsOfKind, List.mem_filterMap, List.mem_filter, beq_iff_eq, OfKind]
  constructor
  · rintro ⟨field, ⟨hfield, hkind⟩, hid⟩
    exact ⟨field, hfield, hid, hkind⟩
  · rintro ⟨field, hfield, hid, hkind⟩
    exact ⟨field, ⟨hfield, hkind⟩, hid⟩

theorem OfKind.reports (h : OfKind fields kind id) : Reports fields id := by
  obtain ⟨field, hfield, hid, -⟩ := h
  exact ⟨field.1, List.mem_map_of_mem hfield, hid⟩

/-! ## The two reads -/

theorem exists_of_getAllOfKind (h : getAllOfKind kind (l, w) = .ok found (l', w')) :
    ∃ typed u all, l.cache.value w = .ok (.object typed) u ∧
      Collection.getAll (l, u) = .ok all (l', w') ∧
      found = all.filter fun r => (idsOfKind typed kind).contains r.id := by
  obtain ⟨_, _, hcurrent, h⟩ := exists_of_bind_ok h
  cases hcurrent
  obtain ⟨typed, _, hreported, h⟩ := exists_of_bind_ok h
  obtain ⟨u, hread, rfl⟩ := exists_of_lift_ok hreported
  obtain ⟨all, _, hall, hpure⟩ := exists_of_bind_ok h
  cases hpure
  exact ⟨typed, u, all, Collection.value_of_reported hread, hall, rfl⟩

/-- A state that is served for some time is the same when it is read again at once. -/
theorem value_again {c : Cache} {v : Json} (hinterval : c.rootInterval ≠ .millis 0)
    (h : c.value w = .ok v u) : c.value u = .ok v u := by
  rw [Cache.value_of_fresh (Cache.fresh_of_value hinterval h), Cache.peek_eq,
    (Cache.view_of_value h).1]
  rfl

/-- Numbers are written as keys that denote them, so a listing finds the pinned and the reported. -/
theorem listed_iff_reported (h : l.Regular) {made : List (Resource Int32)}
    (hmakes : Makes (l.retain listed) listed made) :
    (∃ r ∈ (made.foldl Collection.add (l.retain listed)).entries, r.id = id) ↔
      id ∈ l.pinned ∨ Reports listed id := by
  by_cases hpinned : id ∈ l.pinned
  · refine iff_of_true ?_ (.inl hpinned)
    obtain ⟨r, hr, rfl⟩ := h.pinned id hpinned
    exact ⟨r, Collection.mem_foldl_add.mpr (.inr (Collection.mem_retain.mpr ⟨hr, .inl hpinned⟩)),
      rfl⟩
  · rw [Collection.listed_iff hmakes hpinned, or_iff_right hpinned, or_iff_left_iff_imp]
    rintro ⟨-, hkey⟩
    exact ⟨_, Fields.has_eq_true_iff.mp hkey, readInt32?_int32Text id⟩

/-- What the search for a type finds between two states of a collection and its world, when the first
read sees `typed` and the second one `listed`. -/
structure Selected (kind : String) (s : Collection Int32 × World) (typed listed : Fields)
    (found : List (Resource Int32)) (s' : Collection Int32 × World) : Prop where
  /-- One read follows the other. -/
  reads : ∃ u v, s.1.cache.value s.2 = .ok (.object typed) u ∧
    s.1.cache.value u = .ok (.object listed) v
  /-- The second state is the one that is cached in the end. -/
  cached : s'.1.cache.view s'.2 = .ok (.object listed)
  /-- What is found are entries of the collection, in the order of their ids. -/
  entries : found.Sublist s'.1.entries
  ordered : Ordered found
  /-- The type is looked for in the first state, and the sensor in the second one. -/
  ids : ∀ id, (∃ r ∈ found, r.id = id) ↔
    OfKind typed kind id ∧ (id ∈ s.1.pinned ∨ Reports listed id)
  /-- Only what is served for no time at all is fetched twice. -/
  same : s.1.cache.rootInterval ≠ .millis 0 → typed = listed
  /-- The cached entries of the type are found exactly when both states agree on who has it. -/
  exact : (∀ id, (∃ r ∈ found, r.id = id) ↔ OfKind listed kind id) ↔
    ∀ id, id ∈ s.1.pinned ∨ Reports listed id → (OfKind typed kind id ↔ OfKind listed kind id)
  /-- When they do and keys are canonical, what is found has the type in its own cache. -/
  kinds : typed = listed → (Json.object listed).WellFormed → Canonical Int32 listed →
    ∀ r ∈ found, ∀ node, r.cache = .child s.1.cache node (ResourceId.key r.id) →
      ∃ v, outcome r.cache.peek s'.2 = .ok v ∧ (v.get? "type").bind Json.string? = some kind

theorem exists_selected (hregular : l.Regular) (hheld : w.holds l.cache.node = true)
    (h : getAllOfKind kind (l, w) = .ok found (l', w')) :
    ∃ typed listed, Selected kind (l, w) typed listed found (l', w') := by
  obtain ⟨typed, u, all, hfirst, hall, rfl⟩ := exists_of_getAllOfKind h
  obtain ⟨listed, v, made, hsecond, hmakes, hentries, hl', hw'⟩ :=
    Collection.exists_fields_of_getAll hall
  obtain ⟨hview, hsame⟩ := Cache.view_of_value hsecond
  have hmem (r : Resource Int32) :
      r ∈ all.filter (fun r => (idsOfKind typed kind).contains r.id) ↔
        r ∈ all ∧ OfKind typed kind r.id := by
    rw [List.mem_filter, List.contains_iff_mem, mem_idsOfKind_iff]
  have hids (id : Int32) :
      (∃ r ∈ all.filter (fun r => (idsOfKind typed kind).contains r.id), r.id = id) ↔
        OfKind typed kind id ∧ (id ∈ l.pinned ∨ Reports listed id) := by
    rw [← listed_iff_reported hregular hmakes, ← hentries]
    simp only [hmem]
    constructor
    · rintro ⟨r, ⟨hr, hkind⟩, rfl⟩
      exact ⟨hkind, r, hr, rfl⟩
    · rintro ⟨hkind, r, hr, rfl⟩
      exact ⟨r, ⟨hr, hkind⟩, rfl⟩
  -- a listing leaves the entries in order, and what is searched is the entries
  have hordered : Ordered all := by
    have hkept : (after Collection.getAll (l, u)).1.Regular :=
      (Collection.keeps_getAll (l, u) hregular).1
    rw [after_of_ok hall, hl'] at hkept
    exact hkept.ordered
  refine ⟨typed, listed, ⟨u, v, hfirst, hsecond⟩, ?_, ?_, hordered.filter _, hids, ?_, ?_, ?_⟩
  · rw [hl', hw']
    exact Cache.view_play_newNode hview _
  · rw [hl']
    exact List.filter_sublist
  · intro hinterval
    have hagain := (value_again hinterval hfirst).symm.trans hsecond
    cases hagain
    rfl
  · simp only [hids]
    refine forall_congr' fun id => ⟨fun hexact hlisted => ?_, fun hagree => ?_⟩
    · rw [← hexact, and_iff_left hlisted]
    · exact ⟨fun h => (hagree h.2).mp h.1,
        fun h => ⟨(hagree (.inr h.reports)).mpr h, .inr h.reports⟩⟩
  · -- the entry that had the type is the field that the cache of the sensor reads
    rintro rfl hwell hcanonical r hr node hcache
    obtain ⟨-, ⟨key, slice⟩, hfield, hid, hkind⟩ := (hmem r).mp hr
    have hkey : ResourceId.key r.id = key :=
      (hcanonical key (List.mem_map_of_mem hfield)).2 r.id hid
    have hslice : Fields.value? typed (ResourceId.key r.id) = some slice := by
      rw [hkey]
      exact (Fields.value?_eq_some_iff (Json.wellFormed_object_iff.mp hwell).1).mpr hfield
    have hheld' : v.holds l.cache.node = true := by
      rw [World.holds, hsame, (Cache.view_of_value hfirst).2]
      exact hheld
    refine ⟨slice, ?_, hkind⟩
    rw [hcache, hw']
    exact Collection.peek_made hview hheld' hslice

/-! ## In a session -/

variable {s : BridgeSession × World} {b : Bridge}

/-- **Sensors of a type.** Whatever a session has done so far, when it finds the sensors of a type
they stand in the order of their ids, and there are two reads, one after the other: the ids that the
first one sees with the type are found as far as the second one sees them. What the second one saw is
cached in the end; so the sensors found are those that are cached with the type exactly when both
agree on each cached id, and that is so whenever a state is served for some time. Then what is found
has the type in its own cache, too, as far as keys are canonical. -/
theorem selected_by_two_reads (h : BridgeSession.Reachable s)
    (hfound : Bridge.onSensors (getAllOfKind kind) (s.1.bridge, s.2) = .ok found (b, w)) :
    ∃ typed listed, Selected kind (s.1.bridge.connection.sensors, s.2) typed listed found
      (b.connection.sensors, w) := by
  obtain ⟨config, script, s₁, w₁, commands, hstart, rfl⟩ := h
  obtain ⟨l', w', hall, hstate⟩ := exists_of_within_ok hfound
  cases hstate
  have hsensors := BridgeSession.regular_stateAfter hstart commands
    (l := .numbered (BridgeSession.stateAfter (s₁, w₁) commands).1.bridge.connection.sensors)
    (by simp [Bridge.collections])
  exact exists_selected hsensors.1 hsensors.2 hall

/-- Two of three sensors have the type, and the bridge serves what it has read. -/
theorem switches_found :
    let config := { Config.forAddress "192.168.2.116" with username := "a" }
    let script := Script.ofLines 20 [.once .get "/api/a" (.ok ("\x7b\"sensors\":\x7b" ++
      "\"3\":\x7b\"type\":\"ZGPSwitch\"\x7d,\"2\":\x7b\"type\":\"Daylight\"\x7d," ++
      "\"1\":\x7b\"type\":\"ZGPSwitch\"\x7d\x7d\x7d"))]
    ∃ s w found b w', BridgeSession.start config script World.start = .ok s w ∧
      Bridge.onSensors (getAllOfKind "ZGPSwitch") (s.bridge, w) = .ok found (b, w') ∧
      found.map (·.id) = [1, 3] ∧
      ∃ listed, b.connection.sensors.cache.view w' = .ok (.object listed) ∧
        ∀ id, (∃ r ∈ found, r.id = id) ↔ OfKind listed "ZGPSwitch" id := by
  intro config script
  have hrun : ∃ s w, BridgeSession.start config script World.start = .ok s w ∧
      s.bridge.connection.sensors.cache.rootInterval = .millis 10000 ∧
      (outcome (Bridge.onSensors (getAllOfKind "ZGPSwitch")) (s.bridge, w)).toOption.map
        (·.map (·.id)) = some [1, 3] := ⟨_, _, rfl, rfl, by decide +kernel⟩
  obtain ⟨s, w, hstart, hinterval, hids⟩ := hrun
  obtain ⟨found, hfound, hids⟩ := Option.map_eq_some_iff.mp hids
  have hok := eq_ok_of_outcome (eq_ok_of_toOption hfound)
  obtain ⟨typed, listed, hselected⟩ := selected_by_two_reads ⟨_, _, s, w, [], hstart, rfl⟩ hok
  have hserved : s.bridge.connection.sensors.cache.rootInterval ≠ .millis 0 := by
    rw [hinterval]
    nofun
  refine ⟨s, w, found, _, _, hstart, hok, hids, listed, hselected.cached, ?_⟩
  rw [hselected.exact, hselected.same hserved]
  exact fun _ _ => Iff.rfl

/-- A sensor has the type when its type is looked up, and another one when the sensors are listed:
where nothing is served, it is found nevertheless. -/
theorem sensor_found_by_former_kind :
    ¬ ∀ (s : BridgeSession × World) (kind : String) (found : List (Resource Int32)) (b : Bridge)
      (w : World) (listed : Fields), BridgeSession.Reachable s →
      Bridge.onSensors (getAllOfKind kind) (s.1.bridge, s.2) = .ok found (b, w) →
      b.connection.sensors.cache.view w = .ok (.object listed) →
      ∀ id, (∃ r ∈ found, r.id = id) ↔ OfKind listed kind id := by
  intro h
  let config :=
    { Config.forAddress "192.168.2.116" with username := "a", refreshInterval := .millis 0 }
  let script := Script.ofLines 0
    [.once .get "/api/a" (.ok "\x7b\"sensors\":\x7b\"1\":\x7b\"type\":\"A\"\x7d\x7d\x7d"),
      .once .get "/api/a" (.ok "\x7b\"sensors\":\x7b\"1\":\x7b\"type\":\"B\"\x7d\x7d\x7d")]
  have hrun : ∃ s w, BridgeSession.start config script World.start = .ok s w ∧
      (match Bridge.onSensors (getAllOfKind "A") (s.bridge, w) with
        | .ok found (b, w') => some (found.map (·.id),
            ((b.connection.sensors.cache.view w').toOption.bind Json.object?).map
              (idsOfKind · "A"))
        | .error _ _ => none) = some ([1], some []) := ⟨_, _, rfl, by decide +kernel⟩
  obtain ⟨s, w, hstart, hmatch⟩ := hrun
  have hreachable : BridgeSession.Reachable (s, w) := ⟨_, _, s, w, [], hstart, rfl⟩
  cases hfound : Bridge.onSensors (getAllOfKind "A") (s.bridge, w) with
  | error e t =>
    rw [hfound] at hmatch
    nomatch hmatch
  | ok found t =>
    obtain ⟨b, w'⟩ := t
    rw [hfound] at hmatch
    obtain ⟨hids, hlisted⟩ := Prod.mk.inj (Option.some.inj hmatch)
    obtain ⟨listed, hobject, hnone⟩ := Option.map_eq_some_iff.mp hlisted
    obtain ⟨v, hview, hv⟩ := Option.bind_eq_some_iff.mp hobject
    cases v with
    | object fields =>
      cases hv
      have hexact := h (s, w) "A" found b w' listed hreachable hfound (eq_ok_of_toOption hview) 1
      have hone : (1 : Int32) ∈ found.map (·.id) := by
        rw [hids]
        exact List.mem_singleton_self 1
      have hkind := mem_idsOfKind_iff.mpr (hexact.mp (List.mem_map.mp hone))
      rw [hnone] at hkind
      exact List.not_mem_nil hkind
    | _ => nomatch hv

end Sensors

end LightBridge
