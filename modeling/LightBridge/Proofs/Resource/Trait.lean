import LightBridge.Proofs.Resource.Play
import LightBridge.Proofs.Trait

/-!
# Where the handles of collections come from

The handles of a collection are its own cache and those of its entries. A new entry gets a view of
the collection's cache; only the group of all lights gets a root. So collections pass traits on.
-/

namespace LightBridge

namespace Collection

variable {ι : Type} {t : Trait} {task : Task} {n m : Names}

/-- The handles that a collection has. -/
def handles (l : Collection ι) : List Cache := l.cache :: l.entries.map (·.cache)

theorem held_eq_handles (l : Collection ι) : l.held = l.handles.map (·.node) := by
  simp [held, handles]

/-- All handles of a collection have a trait. -/
structure Bears (t : Trait) (n : Names) (l : Collection ι) : Prop where
  cache : t.At n l.cache
  entries : ∀ r ∈ l.entries, t.At n r.cache

theorem bears_iff {l : Collection ι} : l.Bears t n ↔ ∀ c ∈ l.handles, t.At n c := by
  simp only [handles, List.forall_mem_cons, List.forall_mem_map]
  exact ⟨fun h => ⟨h.cache, h.entries⟩, fun h => ⟨h.1, h.2⟩⟩

namespace Bears

variable {l : Collection ι}

theorem mono (hnm : n ≤ m) (h : l.Bears t n) : l.Bears t m :=
  ⟨t.mono hnm h.cache, fun r hr => t.mono hnm (h.entries r hr)⟩

theorem ofCache {cache : Cache} (h : t.At n cache) (channel : Channel) (path : String) :
    (Collection.ofCache channel path cache : Collection ι).Bears t n :=
  ⟨h, fun _ hr => absurd hr List.not_mem_nil⟩

theorem filter (h : l.Bears t n) (p : Resource ι → Bool) (pinned : List ι) :
    ({ l with entries := l.entries.filter p, pinned } : Collection ι).Bears t n :=
  ⟨h.cache, fun r hr => h.entries r (List.mem_filter.mp hr).1⟩

theorem add [ResourceId ι] (h : l.Bears t n) {r : Resource ι} (hr : t.At n r.cache) :
    (l.add r).Bears t n := by
  refine ⟨h.cache, fun e he => ?_⟩
  rcases mem_insertEntry.mp he with rfl | he
  · exact hr
  · exact h.entries e he

theorem of_entry? [DecidableEq ι] (h : l.Bears t n) {id : ι} {r : Resource ι}
    (hr : l.entry? id = some r) : t.At n r.cache :=
  h.entries r (List.mem_of_find?_eq_some hr)

end Bears

/-- A trait of all handles, as what lasts of a collection. -/
def bearing (t : Trait) : Enduring (Collection ι) := ⟨Bears t, Bears.mono⟩

/-- A trait of the handle of an entry, as what lasts of it. -/
def entryBearing (t : Trait) : Enduring (Resource ι) := t.toEnduring.on (·.cache)

theorem passes_withOwnRoot (channel : Channel) (path : String) (interval : Duration) :
    Act.Passes t task n (bearing t) (withOwnRoot channel path interval : Act (Collection ι)) :=
  (Cache.passes_newRoot path channel interval).bind fun _ _ _ hc => .pure (.ofCache hc channel path)

theorem passes_below {parent : Cache} (h : t.At n parent) (channel : Channel) (path key : String) :
    Act.Passes t task n (bearing t) (below channel path parent key : Act (Collection ι)) :=
  (Cache.passes_newChild h key).bind fun _ _ _ hc => .pure (.ofCache hc channel path)

theorem passes_reading {α : Type} {f : Collection ι → Act α} {s : Collection ι × World}
    (hf : ∀ k, s.1.Bears t k → Act.Passes t task k .any (f s.1)) :
    PassesOnFrom t task n (bearing t) .any (reading f) s :=
  PassesOnFrom.of_current fun k _ hl => PassesOn.lift (hf k hl) s

/-- What is asked for a collection with the cache `cache` is within a task. -/
structure Operation.Serves [ResourceId ι] (task : Task) (cache : Cache) (operation : Operation ι) :
    Prop where
  refetches : operation.refetches = true → task.refetches cache.top
  patches : ∀ id, operation = .remove id → task.patches cache (without (ResourceId.key id))

theorem passes_reported {l : Collection ι} (hl : l.Bears t n) : Act.Passes t task n .any l.reported :=
  .of_plays (plays_reported (Task.cacheUsed (t.known hl.cache)))

variable [DecidableEq ι]

theorem passes_reread {r : Resource ι} (hr : t.At n r.cache) :
    PassesOn t task n (bearing t) (entryBearing t) (reread r) := by
  rintro ⟨l, w⟩ k hk hsince hn hl
  obtain ⟨m, deeds, hkm, hm, hdeeds, hworld, -, -⟩ := Cache.passes_value hr w k hk hsince hn trivial
  -- what is found has the cache of the entry, whether the entry stays or is dropped
  have hok : ∀ found s', reread r (l, w) = .ok found s' → t.At m found.cache := by
    intro found s' h
    rw [eq_of_reread_ok h]
    exact t.mono (Names.le_trans hn hkm) hr
  rcases after_reread r l w with h | ⟨-, h⟩
  · rw [h]
    exact ⟨m, deeds, hkm, hm, hdeeds, hworld, hl.mono hkm, hok⟩
  · rw [h]
    exact ⟨m, deeds, hkm, hm, hdeeds, hworld, (hl.mono hkm).filter _ _, hok⟩

variable [ResourceId ι]

omit [DecidableEq ι] in
theorem passes_materialize {l : Collection ι} (hl : l.Bears t n) (id : ι) (key : String)
    (slice : Json) :
    Act.Passes t task n ((bearing t).both (entryBearing t)) (l.materialize id key slice) :=
  (Cache.passes_newChild hl.cache key).bind fun _ _ hm hc => .pure ⟨(hl.mono hm).add hc, hc⟩

theorem passes_materializeAll {l : Collection ι} (hl : l.Bears t n) (fields : Fields) :
    Act.Passes t task n (bearing t) (l.materializeAll fields) := by
  induction fields generalizing l n with
  | nil => exact .pure hl
  | cons field rest ih =>
    obtain ⟨key, slice⟩ := field
    rw [materializeAll]
    cases ResourceId.ofKey? (ι := ι) key with
    | none => exact ih hl
    | some id =>
      dsimp only
      split
      · exact ih hl
      · exact (passes_materialize hl id key slice).bind fun _ _ _ hmade => ih hmade.1

theorem passes_getAll :
    PassesOn t task n (bearing t) (entryBearing t).all (getAll : ActOn (Collection ι) _) := by
  refine PassesOn.current.bind fun l m _ hl => ?_
  refine (PassesOn.lift (passes_reported hl)).bind fun fields k hk _ => ?_
  -- entries that are not reported any more go, and new ones read from the collection's cache
  have hretained : (l.retain fields).Bears t k := (hl.mono hk).filter _ _
  refine (PassesOn.lift (passes_materializeAll hretained fields)).bind fun l' _ _ hl' => ?_
  exact (PassesOn.become hl').bind fun _ _ hm _ => .pure (hl'.mono hm).entries

theorem passes_get (id : ι) :
    PassesOn t task n (bearing t) (entryBearing t) (get id : ActOn (Collection ι) _) := by
  refine PassesOn.current.bind fun l m _ hl => ?_
  cases h : l.entry? id with
  | some r => exact passes_reread (hl.of_entry? h)
  | none =>
    refine (PassesOn.lift (Cache.passes_value hl.cache)).bind fun state k hk _ => ?_
    cases state.get? (ResourceId.key id) with
    | none => exact .throw _
    | some slice =>
      refine (PassesOn.lift (passes_materialize (hl.mono hk) id _ slice)).bind fun made _ _ hmade => ?_
      exact (PassesOn.become hmade.1).bind fun _ _ hm _ => .pure (t.mono hm hmade.2)

theorem passes_remove (id : ι) {s : Collection ι × World}
    (hpatches : task.patches s.1.cache (without (ResourceId.key id))) :
    PassesOnFrom t task n (bearing t) .any (remove id) s := by
  refine PassesOnFrom.of_current fun m _ hl => ?_
  have hrequest := Channel.plays_request_of_used (P := task.Admits m.roots)
    (Task.channelUsed s.1.channel) (by decide : Method.delete ≠ .get) (s.1.entryPath id) (.object [])
  refine ((PassesOn.lift (.of_plays hrequest)).bind fun reply k hk _ => ?_ : PassesOn ..) s
  split
  · refine (PassesOn.become ((hl.mono hk).filter _ _)).bind fun _ _ hm _ => ?_
    have hcache : s.1.cache.top ∈ _ := t.known (t.mono hm (t.mono hk hl.cache))
    exact (PassesOn.lift (.of_plays (plays_evict s.1 _ fun _ => ⟨hcache, hpatches⟩))).told
  · exact .pure trivial

omit [DecidableEq ι] in
theorem passes_create {l : Collection ι} (hl : l.Bears t n) (h : task.refetches l.cache.top)
    (parameters : Json) : Act.Passes t task n .any (l.create parameters) :=
  .of_plays (plays_create (Task.channelUsed _) (Task.cacheRefetched (t.known hl.cache) h) parameters)

theorem passes_exists? {l : Collection ι} (hl : l.Bears t n) (id : ι) :
    Act.Passes t task n .any (l.exists? id) :=
  .of_plays (plays_exists? (Task.cacheUsed (t.known hl.cache)) id)

theorem passes_perform {operation : Operation ι} {s : Collection ι × World}
    (h : operation.Serves task s.1.cache) :
    PassesOnFrom t task n (bearing t) .any (perform operation) s := by
  cases operation with
  | getAll => exact (passes_getAll.map fun _ _ _ _ => trivial) s
  | get id => exact ((passes_get id).map fun _ _ _ _ => trivial) s
  | has id => exact (passes_reading fun _ hl => passes_exists? hl id).map fun _ _ _ _ => trivial
  | hasCached id =>
    exact (passes_reading fun _ _ => .of_plays (plays_existsCached? _ id)).map fun _ _ _ _ => trivial
  | remove id => exact (passes_remove id (h.patches id rfl)).map fun _ _ _ _ => trivial
  | create parameters =>
    exact (passes_reading fun _ hl => passes_create hl (h.refetches rfl) parameters).map
      fun _ _ _ _ => trivial
  | refresh =>
    exact passes_reading fun _ hl =>
      (Cache.passes_refresh hl.cache (h.refetches rfl)).bind fun _ _ _ _ => .pure trivial
  | isMaterialized | path | username | describe =>
    exact passes_reading fun _ _ => .pure trivial

end Collection

/-! ## Groups and sensors -/

namespace Groups

open Collection (bearing entryBearing)

variable {t : Trait} {task : Task} {n : Names}

theorem passes_materializeAllLights {l : Collection Int32} (hl : l.Bears t n) :
    Act.Passes t task n ((bearing t).both (entryBearing t)) (materializeAllLights l) := by
  refine (Passes.of_plays (Cache.plays_interval l.cache)).bind fun interval _ hm _ => ?_
  -- the group of all lights is not reported with the others, so it has a root of its own
  refine (Cache.passes_newRoot _ l.channel interval).bind fun cache _ hm' hcache => ?_
  refine (Cache.passes_value hcache).bind fun slice _ hm'' _ => .pure ?_
  have hcache := t.mono hm'' hcache
  have hadd := (((hl.mono hm).mono hm').mono hm'').add (r := ⟨allLights, slice, cache⟩) hcache
  exact ⟨⟨hadd.cache, hadd.entries⟩, hcache⟩

theorem passes_get (id : Int32) : PassesOn t task n (bearing t) (entryBearing t) (get id) := by
  unfold get
  split
  · refine PassesOn.current.bind fun l m _ hl => ?_
    cases h : l.entry? id with
    | some r =>
      have hr := hl.of_entry? h
      exact (PassesOn.lift (Cache.passes_value hr)).bind fun _ _ hm _ => .pure (t.mono hm hr)
    | none =>
      refine (PassesOn.lift (passes_materializeAllLights hl)).bind fun made _ _ hmade => ?_
      exact (PassesOn.become hmade.1).bind fun _ _ hm _ => .pure (t.mono hm hmade.2)
  · exact Collection.passes_get id

theorem passes_exists? {l : Collection Int32} (hl : l.Bears t n) (id : Int32) :
    Act.Passes t task n .any (exists? l id) :=
  .of_plays (plays_exists? (Task.cacheUsed (t.known hl.cache)) id)

theorem passes_perform {operation : Collection.Operation Int32} {s : Collection Int32 × World}
    (h : operation.Serves task s.1.cache) :
    PassesOnFrom t task n (bearing t) .any (perform operation) s := by
  have hplain := Collection.passes_perform (t := t) (n := n) h
  cases operation with
  | get id => exact ((passes_get id).map fun _ _ _ _ => trivial) s
  | has id =>
    exact (Collection.passes_reading fun _ hl => passes_exists? hl id).map fun _ _ _ _ => trivial
  | hasCached id =>
    exact (Collection.passes_reading fun _ _ => .of_plays (plays_existsCached? _ id)).map
      fun _ _ _ _ => trivial
  | _ => exact hplain

end Groups

theorem Sensors.passes_getAllOfKind {t : Trait} {task : Task} {n : Names} (kind : String) :
    PassesOn t task n (Collection.bearing t) .any (getAllOfKind kind) := by
  refine PassesOn.current.bind fun l _ _ hl => ?_
  refine (PassesOn.lift (Collection.passes_reported hl)).bind fun _ _ _ _ => ?_
  exact Collection.passes_getAll.told

end LightBridge
