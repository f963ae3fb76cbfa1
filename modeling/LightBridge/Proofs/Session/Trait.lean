import LightBridge.Proofs.Bridge.Trait
import LightBridge.Proofs.Session.Play
import LightBridge.Proofs.Session.Task

/-!
# Where the handles of a session come from

A session has handles under names, in its collections and for its changes. Every command makes
handles anew or copies those that are there, so a trait of all handles of a session is one of all
that it ever gets; and what a command does to its world serves the task of the command.
-/

namespace LightBridge

variable {t : Trait} {task : Task} {n m : Names}

/-! ## Collections of any kind -/

namespace Registry

variable {α : Type} {Q : Enduring α}

/-- The handles that the collection has. -/
def handles : Registry → List Cache
  | numbered l | groups l => l.handles
  | named l => l.handles

theorem held_eq_handles (l : Registry) : l.held = l.handles.map (·.node) := by
  cases l with
  | numbered l | groups l => exact l.held_eq_handles
  | named l => exact l.held_eq_handles

/-- All handles of the collection have a trait. -/
def Bears (t : Trait) (n : Names) : Registry → Prop
  | numbered l | groups l => l.Bears t n
  | named l => l.Bears t n

theorem bears_iff {l : Registry} : l.Bears t n ↔ ∀ c ∈ l.handles, t.At n c := by
  cases l with
  | numbered l | groups l => exact Collection.bears_iff
  | named l => exact Collection.bears_iff

theorem Bears.mono {l : Registry} (hnm : n ≤ m) (h : l.Bears t n) : l.Bears t m := by
  cases l with
  | numbered l | groups l => exact Collection.Bears.mono hnm h
  | named l => exact Collection.Bears.mono hnm h

theorem Bears.cache {l : Registry} (h : l.Bears t n) : t.At n l.cache := by
  cases l with
  | numbered l | groups l => exact Collection.Bears.cache h
  | named l => exact Collection.Bears.cache h

/-- A trait of all handles, as what lasts of a collection. -/
def bearing (t : Trait) : Enduring Registry := ⟨Bears t, Bears.mono⟩

theorem after_rebuild {σ : Type} {make : σ → Registry} {x : ActOn σ α} {y : ActOn Registry α} {l : σ}
    {w : World} (h : y (make l, w) = rebuild make (x (l, w))) :
    after y (make l, w) = (make (after x (l, w)).1, (after x (l, w)).2) := by
  unfold after
  rw [h]
  cases x (l, w) <;> rfl

/-- What a collection of one kind passes on, any collection passes on. -/
theorem passes_of_rebuild {ι : Type} {make : Collection ι → Registry} {x : ActOn (Collection ι) α}
    {y : ActOn Registry α} {l : Collection ι} {w : World}
    (hx : PassesOnFrom t task n (Collection.bearing t) Q x (l, w))
    (hmake : ∀ k l, l.Bears t k ↔ (make l).Bears t k) (h : y (make l, w) = rebuild make (x (l, w))) :
    PassesOnFrom t task n (bearing t) Q y (make l, w) := by
  intro k hk hsince hn hl
  obtain ⟨m, deeds, hkm, hm, hdeeds, hworld, hJ, hok⟩ := hx k hk hsince hn ((hmake k l).mpr hl)
  rw [after_rebuild h]
  refine ⟨m, deeds, hkm, hm, hdeeds, hworld, (hmake m _).mp hJ, fun a s' ha => ?_⟩
  rw [h] at ha
  cases hrun : x (l, w) with
  | ok b u =>
    rw [hrun] at ha
    cases ha
    exact hok _ _ hrun
  | error e u =>
    rw [hrun] at ha
    nomatch ha

/-- What is asked of the collection is within a task. -/
structure Serves (task : Task) (l : Registry) (operation : Collection.Operation Key) : Prop where
  refetches : operation.refetches = true → task.refetches l.cache.top
  patches : ∀ id, operation = .remove id → task.patches l.cache (Collection.without (l.keyOf id))

/-- Whichever ids a collection has, what is asked of it stays within the task. -/
theorem serves_map {ι : Type} [ResourceId ι] {f : Key → ι} {operation : Collection.Operation Key}
    {cache : Cache} (hrefetches : operation.refetches = true → task.refetches cache.top)
    (hpatches : ∀ id, operation = .remove id →
      task.patches cache (Collection.without (ResourceId.key (f id)))) :
    (operation.map f).Serves task cache := by
  cases operation with
  | remove id =>
    refine ⟨nofun, fun id' h => ?_⟩
    cases h
    exact hpatches id rfl
  | _ => exact ⟨hrefetches, nofun⟩

theorem passes_perform {plain : Bool} {operation : Collection.Operation Key} {s : Registry × World}
    (h : s.1.Serves task operation) :
    PassesOnFrom t task n (bearing t) .any (perform plain operation) s := by
  obtain ⟨r, w⟩ := s
  cases r with
  | numbered l | named l =>
    have hcollection := Collection.passes_perform (t := t) (n := n) (s := (l, w))
      (serves_map h.refetches h.patches)
    exact passes_of_rebuild (hcollection.map fun _ _ _ _ => trivial) (fun _ _ => Iff.rfl) rfl
  | groups l =>
    have hserves := serves_map (f := Key.toNumber) h.refetches h.patches
    cases plain with
    | true =>
      have hcollection := Collection.passes_perform (t := t) (n := n) (s := (l, w)) hserves
      exact passes_of_rebuild (hcollection.map fun _ _ _ _ => trivial) (fun _ _ => Iff.rfl) rfl
    | false =>
      have hgroups := Groups.passes_perform (t := t) (n := n) (s := (l, w)) hserves
      exact passes_of_rebuild (hgroups.map fun _ _ _ _ => trivial) (fun _ _ => Iff.rfl) rfl

theorem passes_entryCache (id : Key) :
    PassesOn t task n (bearing t) t.toEnduring (entryCache id) := by
  rintro ⟨r, w⟩
  cases r with
  | numbered l | named l =>
    exact passes_of_rebuild (.map (Collection.passes_get _ _) fun _ _ _ h => h) (fun _ _ => Iff.rfl) rfl
  | groups l =>
    exact passes_of_rebuild (.map (Groups.passes_get _ _) fun _ _ _ h => h) (fun _ _ => Iff.rfl) rfl

end Registry

/-! ## Changes -/

namespace Change

/-- The handle that a change has, if it has one. -/
def handles (c : Change) : List Cache := c.cache.toList

theorem cache_perform (c : Change) (operation : Operation) :
    (c.perform operation).1.cache = c.cache := by
  cases operation with
  | set setters =>
    show (setters.foldl Change.set c).cache = c.cache
    induction setters generalizing c with
    | nil => rfl
    | cons s rest ih => exact ih (c.set s)
  | trim | pending => rfl

/-- A trait of the handle, as what lasts of a change. -/
def bearing (t : Trait) : Enduring Change := t.toEnduring.all.on handles

theorem bearing_start {cache : Option Cache} (h : ∀ c ∈ cache.toList, t.At n c) (channel : Channel)
    (path : String) (baseline : Json) :
    (bearing t).At n (.start channel path baseline cache) := h

theorem bearing_perform {c : Change} (h : (bearing t).At n c) (operation : Operation) :
    (bearing t).At n (c.perform operation).1 := by
  show ∀ cache ∈ (c.perform operation).1.cache.toList, t.At n cache
  rw [cache_perform]
  exact h

theorem passes_commit {c : Change} (hc : (bearing t).At n c)
    (hpatches : ∀ body, c.body? = some body → ∀ cache, c.cache = some cache →
      task.patches cache (patchState body)) :
    Act.Passes t task n .any c.commit := by
  refine .of_plays (plays_commit_of_used (Task.channelUsed _) fun body hbody cache hcache _ => ?_)
  have hmem : cache ∈ c.handles := Option.mem_toList.mpr hcache
  exact ⟨t.known (hc cache hmem), hpatches body hbody cache hcache⟩

end Change

/-! ## Tables -/

/-- What holds of all values in a table. -/
def Enduring.table {α : Type} (Q : Enduring α) : Enduring (Table String α) := Q.all.on Table.values

namespace Enduring

variable {α : Type} {Q : Enduring α} {T : Table String α}

theorem table_set (h : Q.table.At n T) (name : String) {a : α} (ha : Q.At n a) :
    Q.table.At n (T.set name a) := by
  intro b hb
  rcases Table.mem_values_set hb with rfl | hb
  · exact ha
  · exact h b hb

theorem table_erase (h : Q.table.At n T) (name : String) : Q.table.At n (T.erase name) :=
  fun b hb => h b (Table.mem_values_erase hb)

theorem table_get? (h : Q.table.At n T) {name : String} {a : α} (ha : T.get? name = some a) :
    Q.At n a := h a (Table.mem_values ha)

end Enduring

/-- What the handles of several changes are. -/
theorem Change.filterMap_node (changes : List Change) :
    (changes.filterMap fun c => c.cache.map (·.node)) = (changes.flatMap handles).map (·.node) := by
  induction changes with
  | nil => rfl
  | cons c rest ih =>
    rw [List.flatMap_cons, List.map_append, ← ih, handles]
    cases h : c.cache with
    | none => simp [h]
    | some cache => simp [h]

/-! ## Workspaces -/

namespace Workspace

variable {α : Type} {Q : Enduring α}

/-- The handles that a workspace has. -/
def handles (s : Workspace) : List Cache :=
  s.caches.values ++ s.lists.values.flatMap (·.handles) ++ s.changes.values.flatMap (·.handles)

theorem held_eq_handles (s : Workspace) : held s = s.handles.map (·.node) := by
  have hlists : s.lists.values.flatMap (·.held) =
      (s.lists.values.flatMap (·.handles)).map (·.node) := by
    rw [List.map_flatMap]
    exact List.flatMap_congr fun l _ => l.held_eq_handles
  rw [held, handles, hlists, Change.filterMap_node, List.map_append, List.map_append]

/-- All handles of a workspace have a trait. -/
structure Bears (t : Trait) (n : Names) (s : Workspace) : Prop where
  caches : t.toEnduring.table.At n s.caches
  lists : (Registry.bearing t).table.At n s.lists
  changes : (Change.bearing t).table.At n s.changes

theorem bears_iff {s : Workspace} : s.Bears t n ↔ ∀ c ∈ s.handles, t.At n c := by
  have hlists : (Registry.bearing t).table.At n s.lists ↔
      ∀ c ∈ s.lists.values.flatMap (·.handles), t.At n c := by
    rw [List.forall_mem_flatMap]
    exact forall₂_congr fun _ _ => Registry.bears_iff
  have hchanges : (Change.bearing t).table.At n s.changes ↔
      ∀ c ∈ s.changes.values.flatMap (·.handles), t.At n c := by
    rw [List.forall_mem_flatMap]
    rfl
  rw [handles, List.forall_mem_append, List.forall_mem_append, ← hlists, ← hchanges]
  exact ⟨fun h => ⟨⟨h.caches, h.lists⟩, h.changes⟩, fun ⟨⟨hc, hl⟩, hx⟩ => ⟨hc, hl, hx⟩⟩

/-- A trait of all handles, as what lasts of a workspace. -/
def bearing (t : Trait) : Enduring Workspace where
  At := Bears t
  mono hnm h :=
    ⟨Enduring.mono _ hnm h.caches, Enduring.mono _ hnm h.lists, Enduring.mono _ hnm h.changes⟩

/-- A trait is one of all handles that a workspace has. -/
theorem bearing_eq (t : Trait) : bearing t = t.toEnduring.all.on handles :=
  Enduring.ext (funext₂ fun _ _ => propext bears_iff)

theorem passes_channel (name : String) : PassesOn t task n (bearing t) .any (channel name) :=
  PassesOn.here.bind fun _ _ _ _ => PassesOn.found fun _ _ => trivial

theorem passes_cache (name : String) : PassesOn t task n (bearing t) t.toEnduring (cache name) :=
  PassesOn.here.bind fun _ _ _ hs => PassesOn.found fun _ hc => Enduring.table_get? hs.caches hc

theorem passes_list (name : String) :
    PassesOn t task n (bearing t) (Registry.bearing t) (list name) :=
  PassesOn.here.bind fun _ _ _ hs => PassesOn.found fun _ hl => Enduring.table_get? hs.lists hl

theorem passes_change (name : String) :
    PassesOn t task n (bearing t) (Change.bearing t) (change name) :=
  PassesOn.here.bind fun _ _ _ hs => PassesOn.found fun _ hc => Enduring.table_get? hs.changes hc

theorem passes_keepCache (name : String) {c : Cache} (hc : t.At n c) :
    PassesOn t task n (bearing t) .any (keepCache name c) :=
  PassesOn.update fun _ _ hn hs =>
    ⟨Enduring.table_set hs.caches name (t.mono hn hc), hs.lists, hs.changes⟩

theorem passes_keepChange (name : String) {c : Change} (hc : (Change.bearing t).At n c) :
    PassesOn t task n (bearing t) .any (keepChange name c) :=
  PassesOn.update fun _ _ hn hs =>
    ⟨hs.caches, hs.lists, Enduring.table_set hs.changes name (Enduring.mono _ hn hc)⟩

theorem passes_onList (name : String) {x : ActOn Registry α} {s : Workspace × World}
    (hx : ∀ l, s.1.lists.get? name = some l →
      PassesOnFrom t task n (Registry.bearing t) Q x (l, s.2)) :
    PassesOnFrom t task n (bearing t) Q (onList name x) s := by
  obtain ⟨s, w⟩ := s
  intro k hk hsince hn hs
  -- the collection goes back under its name even when the operation on it fails
  cases hlist : s.lists.get? name with
  | none =>
    simp only [after, onList, hlist]
    exact ⟨k, [], k.le_refl, hk, trivial, rfl, hs, fun _ _ hb => by cases hb⟩
  | some l =>
    obtain ⟨m, deeds, hkm, hm, hdeeds, hworld, hl, hok⟩ :=
      hx l hlist k hk hsince hn (Enduring.table_get? hs.lists hlist)
    have hs' : (bearing t).At m s := (bearing t).mono hkm hs
    cases h : x (l, w) with
    | ok a u =>
      rw [after_of_ok h] at hm hworld hl
      simp only [after, onList, hlist, h]
      refine ⟨m, deeds, hkm, hm, hdeeds, hworld, ?_, fun b u' hb => ?_⟩
      · exact ⟨hs'.caches, Enduring.table_set hs'.lists name hl, hs'.changes⟩
      · cases hb
        exact hok _ _ h
    | error e u =>
      rw [after_of_error h] at hm hworld hl
      simp only [after, onList, hlist, h]
      refine ⟨m, deeds, hkm, hm, hdeeds, hworld, ?_, fun _ _ hb => by cases hb⟩
      exact ⟨hs'.caches, Enduring.table_set hs'.lists name hl, hs'.changes⟩

theorem passes_makeList {ι : Type} [DecidableEq ι] [ResourceId ι] (channel : Channel) (path : String)
    (source : Source) :
    PassesOn t task n (bearing t) (Collection.bearing t)
      (makeList channel path source : Step Workspace (Collection ι)) := by
  cases source with
  | ownRoot interval => exact PassesOn.liftStep (Collection.passes_withOwnRoot channel path interval)
  | below parent key =>
    exact (passes_cache parent).bind fun c _ _ hc =>
      PassesOn.liftStep (Collection.passes_below hc channel path key)

theorem passes_baselineOf {cache : Option Cache} (hcache : ∀ c ∈ cache.toList, t.At n c)
    (baseline : Option Json) : Act.Passes t task n .any (baselineOf cache baseline) := by
  cases baseline with
  | some v => exact .pure trivial
  | none =>
    cases cache with
    | some c => exact Cache.passes_value (hcache c List.mem_cons_self)
    | none => exact .pure trivial

/-- What leaves everything in the workspace alone. -/
theorem passes_lift {x : Act α} (hx : Act.Passes t task n Q x) :
    PassesOn t task n (bearing t) Q (liftM x : Step Workspace α) :=
  PassesOn.liftStep hx

theorem passes_newList (name via : String) (kind : Registry.Kind) (path : String) (source : Source) :
    PassesOn t task n (bearing t) .any (perform (.newList name via kind path source)) := by
  refine (passes_channel via).bind fun c k _ _ => ?_
  -- collections of all kinds are made and kept alike
  have hkeep (r : Registry) (m : Names) (_ : k ≤ m) (hr : r.Bears t m) :
      PassesOn t task m (bearing t) .any (do
        Step.update fun s => { s with lists := s.lists.set name r }
        pure Answer.nothing : Step Workspace Answer) :=
    .told (PassesOn.update fun _ _ hm hs =>
      ⟨hs.caches, Enduring.table_set hs.lists name (hr.mono hm), hs.changes⟩)
  cases kind with
  | numbered | named | groups =>
    refine .bind (Q := Registry.bearing t) (.map (passes_makeList c path source) ?_) hkeep
    exact fun _ _ _ h => h

theorem passes_newChange (name via path : String) (cacheName : Option String)
    (baseline : Option Json) :
    PassesOn t task n (bearing t) .any (perform (.newChange name via path cacheName baseline)) := by
  refine (passes_channel via).bind fun c k _ _ => ?_
  -- a change has the cache it was given, or none; its baseline is read and has no handles
  have hrest (cache : Option Cache) (m : Names) (_ : k ≤ m) (hcache : ∀ c ∈ cache.toList, t.At m c) :
      PassesOn t task m (bearing t) .any (do
        let baseline ← baselineOf cache baseline
        keepChange name (.start c path baseline cache)
        pure Answer.nothing : Step Workspace Answer) := by
    refine (passes_lift (passes_baselineOf hcache baseline)).bind fun v _ hm _ =>
      (passes_keepChange name ?_).told
    exact Enduring.mono _ hm (Change.bearing_start hcache c path v)
  cases cacheName with
  | some other =>
    refine .bind ((passes_cache other).map (R := t.toEnduring.all.on Option.toList) ?_) hrest
    intro cache _ _ hcache c hc
    rwa [List.mem_singleton.mp hc]
  | none => exact hrest none k k.le_refl fun _ hc => absurd hc List.not_mem_nil

theorem passes_perform (command : Command) (s : Workspace × World) :
    PassesOnFrom t (Workspace.task s command) n (bearing t) .any (perform command) s := by
  cases command with
  | advance d => exact (passes_lift (.of_plays (Act.plays_wait d fun _ _ => trivial))).told s
  | prepare line =>
    refine PassesOnFrom.of_here fun k _ _ => ?_
    have hscript : Act.Passes t (task s (.prepare line)) k .any
        (Act.changeScript s.1.transport (·.add line)) :=
      .of_plays (Act.plays_changeScript _ _ fun _ _ => ⟨line, rfl⟩)
    exact (passes_lift hscript).told s
  | request via method path body =>
    refine ((passes_channel via).bind fun c k _ _ => ?_ : PassesOn ..) s
    refine (passes_lift (.of_plays (c.plays_request method path body fun _ hget => ?_))).told
    -- only a plain request that reads is one of those asked for
    cases (show method = .get from hget)
    exact ⟨via, path, body, rfl, c, rfl⟩
  | newChannel name via username =>
    refine ((passes_channel via).bind fun c _ _ _ => .told (PassesOn.update fun _ _ _ hs => ?_) :
      PassesOn ..) s
    exact ⟨hs.caches, hs.lists, hs.changes⟩
  | uri via path => exact (passes_channel via).told s
  | channelInfo via =>
    exact ((passes_channel via).bind fun c _ _ _ =>
      (passes_lift (.of_plays (Act.plays_nextAllowed _))).told : PassesOn ..) s
  | newRoot name via path interval =>
    refine ((passes_channel via).bind fun c _ _ _ => ?_ : PassesOn ..) s
    exact (passes_lift (Cache.passes_newRoot path c interval)).bind fun _ _ _ hc =>
      (passes_keepCache name hc).told
  | newChild name parent key =>
    refine ((passes_cache parent).bind fun c _ _ hc => ?_ : PassesOn ..) s
    exact (passes_lift (Cache.passes_newChild hc key)).bind fun _ _ _ hchild =>
      (passes_keepCache name hchild).told
  | share name other =>
    exact ((passes_cache other).bind fun _ _ _ hc => (passes_keepCache name hc).told : PassesOn ..) s
  | listCache name other =>
    exact ((passes_list other).bind fun _ _ _ hl => (passes_keepCache name hl.cache).told :
      PassesOn ..) s
  | entryCache name other id =>
    exact (passes_onList other fun _ _ => Registry.passes_entryCache id _).bind fun _ _ _ _ _ hc =>
      (passes_keepCache name hc).told _
  | onCache name operation =>
    refine .of_state fun k _ hs => PassesOnFrom.of_found rfl fun c hc => ?_
    have hperform : Act.Passes t (task s (.onCache name operation)) k .any (c.perform operation) :=
      Cache.passes_perform (Enduring.table_get? hs.caches hc) fun hop => ⟨hop, c, hc, rfl⟩
    exact (passes_lift hperform).told s
  | update name field value =>
    refine .of_state fun k _ hs => PassesOnFrom.of_found rfl fun c hc => ?_
    have hpatch : Act.Passes t (task s (.update name field value)) k .any
        (c.patch (assign field value)) :=
      Cache.passes_patch (Enduring.table_get? hs.caches hc) ⟨hc, rfl⟩
    exact (passes_lift hpatch).told s
  | dropCache name =>
    refine (PassesOn.here.bind fun s _ _ _ => .told (PassesOn.update fun _ _ _ hs => ?_) :
      PassesOn ..) s
    exact ⟨Enduring.table_erase hs.caches name, hs.lists, hs.changes⟩
  | dropList name =>
    refine (PassesOn.here.bind fun s _ _ _ => .told (PassesOn.update fun _ _ _ hs => ?_) :
      PassesOn ..) s
    exact ⟨hs.caches, Enduring.table_erase hs.lists name, hs.changes⟩
  | dropChange name =>
    refine (PassesOn.here.bind fun s _ _ _ => .told (PassesOn.update fun _ _ _ hs => ?_) :
      PassesOn ..) s
    exact ⟨hs.caches, hs.lists, Enduring.table_erase hs.changes name⟩
  | newList name via kind path source => exact passes_newList name via kind path source s
  | onList name plain operation =>
    refine (passes_onList name fun l hl => Registry.passes_perform ⟨fun hop => ?_, ?_⟩).told
    · exact ⟨hop, l.cache, congrArg (Option.map Registry.cache) hl, rfl⟩
    · rintro id rfl
      exact ⟨l, hl, rfl, rfl⟩
  | newChange name via path cacheName baseline =>
    exact passes_newChange name via path cacheName baseline s
  | onChange name operation =>
    exact ((passes_change name).bind fun c _ _ hc =>
      (passes_keepChange name (Change.bearing_perform hc operation)).told : PassesOn ..) s
  | commit name =>
    refine .of_state fun k _ hs => PassesOnFrom.of_found rfl fun c hc => ?_
    have hbears : (Change.bearing t).At k c := Enduring.table_get? hs.changes hc
    refine (Passes.bind (PassesOn.update fun _ _ _ hs => ?_) fun _ m hm _ => ?_ : PassesOn ..) s
    · exact ⟨hs.caches, hs.lists, Enduring.table_erase hs.changes name⟩
    · refine (passes_lift (Change.passes_commit (Enduring.mono _ hm hbears) ?_)).told
      exact fun body hbody cache hcache => ⟨c, body, hc, hbody, hcache, rfl⟩

end Workspace

/-! ## Bridges -/

namespace BridgeSession

variable {α : Type} {Q : Enduring α}

/-- The handles that a session has. -/
def handles (s : BridgeSession) : List Cache :=
  s.bridge.handles ++ s.kept.values ++ s.changes.values.flatMap (·.handles)

theorem held_eq_handles (s : BridgeSession) : held s = s.handles.map (·.node) := by
  rw [held, handles, Bridge.held_eq_handles, Change.filterMap_node, List.map_append, List.map_append]

/-- All handles of a session have a trait. -/
structure Bears (t : Trait) (n : Names) (s : BridgeSession) : Prop where
  bridge : (Bridge.bearing t).At n s.bridge
  kept : t.toEnduring.table.At n s.kept
  changes : (Change.bearing t).table.At n s.changes

theorem bears_iff {s : BridgeSession} : s.Bears t n ↔ ∀ c ∈ s.handles, t.At n c := by
  have hbridge : (Bridge.bearing t).At n s.bridge ↔ ∀ c ∈ s.bridge.handles, t.At n c :=
    Bridge.bears_iff
  have hchanges : (Change.bearing t).table.At n s.changes ↔
      ∀ c ∈ s.changes.values.flatMap (·.handles), t.At n c := by
    rw [List.forall_mem_flatMap]
    rfl
  rw [handles, List.forall_mem_append, List.forall_mem_append, ← hbridge, ← hchanges]
  exact ⟨fun h => ⟨⟨h.bridge, h.kept⟩, h.changes⟩, fun ⟨⟨hb, hk⟩, hx⟩ => ⟨hb, hk, hx⟩⟩

/-- A trait of all handles, as what lasts of a session. -/
def bearing (t : Trait) : Enduring BridgeSession where
  At := Bears t
  mono hnm h :=
    ⟨Enduring.mono _ hnm h.bridge, Enduring.mono _ hnm h.kept, Enduring.mono _ hnm h.changes⟩

/-- A trait is one of all handles that a session has. -/
theorem bearing_eq (t : Trait) : bearing t = t.toEnduring.all.on handles :=
  Enduring.ext (funext₂ fun _ _ => propext bears_iff)

theorem passes_onBridge {x : ActOn Bridge α} {s : BridgeSession × World}
    (hx : PassesOnFrom t task n (Bridge.bearing t) Q x (s.1.bridge, s.2)) :
    PassesOnFrom t task n (bearing t) Q (onBridge x) s :=
  hx.within (fun _ hs => hs.bridge) fun _ _ hs hb => { hs with bridge := hb }

theorem passes_lift {x : Act α} (hx : Act.Passes t task n Q x) :
    PassesOn t task n (bearing t) Q (liftM x : Step BridgeSession α) :=
  PassesOn.liftStep hx

theorem passes_asking {f : Bridge → Act α} {s : BridgeSession × World}
    (hf : ∀ k, s.1.bridge.connection.Bears t k → Act.Passes t task k .any (f s.1.bridge)) :
    PassesOnFrom t task n (bearing t) .any (asking f) s :=
  .ofActOn (.of_current fun k _ hs => PassesOn.lift (hf k hs.bridge) s)

theorem passes_onSection {x : ActOn (Collection Int32) α} (which : Bridge.Section)
    {b : Bridge × World}
    (hx : ∀ l : Collection Int32, l.cache = b.1.sectionCache which →
      PassesOnFrom t task n (Collection.bearing t) Q x (l, b.2)) :
    PassesOnFrom t task n (Bridge.bearing t) Q (Bridge.onSection which x) b := by
  cases which with
  | lights => exact Bridge.passes_onLights (hx _ rfl)
  | groups => exact Bridge.passes_onGroups (hx _ rfl)
  | schedules => exact Bridge.passes_onSchedules (hx _ rfl)
  | sensors => exact Bridge.passes_onSensors (hx _ rfl)

theorem passes_performOn (which : Bridge.Section) {operation : Collection.Operation Int32}
    {s : Collection Int32 × World} (h : operation.Serves task s.1.cache) :
    PassesOnFrom t task n (Collection.bearing t) .any (Bridge.performOn which operation) s := by
  cases which with
  | lights | schedules => exact Collection.passes_perform h
  | groups => exact Groups.passes_perform h
  | sensors =>
    have hplain := Collection.passes_perform (t := t) (n := n) h
    cases operation with
    | describe => exact Collection.passes_reading fun _ _ => .pure trivial
    | _ => exact hplain

theorem passes_entry (which : Bridge.Section) (id : Int32) :
    PassesOn t task n (Bridge.bearing t) (Collection.entryBearing t) (Bridge.entry which id) := by
  refine fun b => passes_onSection which fun l _ => ?_
  split
  · exact Groups.passes_get id _
  · exact Collection.passes_get id _

theorem Bears.sectionCache {s : BridgeSession} (hs : s.Bears t n) (which : Bridge.Section) :
    t.At n (s.bridge.sectionCache which) := by
  cases which with
  | lights => exact hs.bridge.lights.cache
  | groups => exact hs.bridge.groups.cache
  | schedules => exact hs.bridge.schedules.cache
  | sensors => exact hs.bridge.sensors.cache

theorem passes_keep (name : String) {c : Cache} (hc : t.At n c) :
    PassesOn t task n (bearing t) .any (keep name c) :=
  .told (PassesOn.update fun _ _ hn hs =>
    { hs with kept := Enduring.table_set hs.kept name (t.mono hn hc) })

theorem passes_keepChange (name : String) {c : Change} (hc : (Change.bearing t).At n c) :
    PassesOn t task n (bearing t) .any (keepChange name c) :=
  .told (PassesOn.update fun _ _ hn hs =>
    { hs with changes := Enduring.table_set hs.changes name (Enduring.mono _ hn hc) })

theorem passes_change (name : String) :
    PassesOn t task n (bearing t) (Change.bearing t) (change name) :=
  PassesOn.here.bind fun _ _ _ hs => PassesOn.found fun _ hc => Enduring.table_get? hs.changes hc

/-! ### Handles -/

/-- A handle whose root is known may be used. -/
theorem used_of_known {ι : Type} {h : Handle ι} {roots : List Cache} (hh : h.cache.top ∈ roots) :
    h.Used (task.Admits roots) :=
  ⟨Task.admitsIdle, Task.cacheUsed hh, Task.channelUsed _⟩

section Calls

variable {η κ : Type} {get : ActOn Bridge η} {perform : η → κ → Act Reading}
  {s : BridgeSession × World} {calls : List (Timed κ)} {command : Command}

/-- The handle that a command is about is got, and what is done with it serves the command when each
call does. -/
theorem passes_withHandle {cache : η → Cache}
    (hget : PassesOn t (BridgeSession.task s command) n (Bridge.bearing t) (t.toEnduring.on cache) get)
    (htarget : command.target? s = (got? s get).map cache)
    (hperform : ∀ handle (k : Names), command.target? s = some (cache handle) →
      (cache handle).top ∈ k.roots → ∀ a, .operation a ∈ calls →
        Act.Plays ((BridgeSession.task s command).Admits k.roots) (fun _ => True)
          (perform handle a)) :
    PassesOnFrom t (BridgeSession.task s command) n (bearing t) .any
      (withHandle get perform calls) s := by
  refine (PassesOnFrom.liftActOn (passes_onBridge (hget _))).bind fun handle s' k hrun _ hcache => ?_
  have hgot : command.target? s = some (cache handle) := by
    have hok : onBridge get s = .ok handle s' := ok_of_ofActOn_ok hrun
    rw [htarget, got?, outcome_of_ok hok]
    rfl
  have hreadings := plays_readings (P := (BridgeSession.task s command).Admits k.roots)
    Task.admitsIdle (hperform handle k hgot (t.known hcache))
  exact (passes_lift (.of_plays hreadings)).told s'

/-- A call that refetches is one of a command that does. -/
theorem refetched_of_mem {p : κ → Bool} {a : κ} (ha : Timed.operation a ∈ calls) {c : Cache}
    {roots : List Cache} (hc : c.top ∈ roots) (htarget : command.target? s = some c)
    (hcommand : command.refetches = calls.any (Timed.is p)) (hp : p a = true) :
    c.Refetched ((BridgeSession.task s command).Admits roots) := by
  refine Task.cacheRefetched hc ⟨?_, c, htarget, rfl⟩
  rw [hcommand]
  exact List.any_eq_true.mpr ⟨_, ha, hp⟩

end Calls

theorem passes_onHandle (command : Command) (s : BridgeSession × World)
    (h : match command with
      | .withLight .. | .withGroup .. | .withSchedule .. | .withScene .. | .withSensor .. => True
      | _ => False) :
    PassesOnFrom t (BridgeSession.task s command) n (bearing t) .any (perform command) s := by
  cases command with
  | withLight id calls =>
    refine passes_withHandle (Bridge.passes_light id) rfl fun l k htarget hl a ha => ?_
    refine Light.plays_perform (used_of_known hl) (refetched_of_mem ha hl htarget rfl) ?_
    exact fun hpatch node body _ =>
      ⟨hl, List.any_eq_true.mpr ⟨_, ha, hpatch⟩, l.cache, node, body, htarget, rfl, rfl⟩
  | withGroup id calls =>
    exact passes_withHandle (Bridge.passes_group id) rfl fun _ _ htarget hg _ ha =>
      Group.plays_perform (used_of_known hg) (refetched_of_mem ha hg htarget rfl)
  | withSchedule id calls =>
    exact passes_withHandle (Bridge.passes_schedule id) rfl fun _ _ htarget hh _ ha =>
      Schedule.plays_perform (used_of_known hh) (refetched_of_mem ha hh htarget rfl)
  | withScene id calls =>
    exact passes_withHandle (Bridge.passes_scene id) rfl fun _ _ htarget hh _ ha =>
      Scene.plays_perform (used_of_known hh) (refetched_of_mem ha hh htarget rfl)
  | withSensor id calls =>
    exact passes_withHandle (Bridge.passes_sensor id) rfl fun _ _ htarget hh _ ha =>
      Sensor.plays_perform (used_of_known hh) (refetched_of_mem ha hh htarget rfl)
  | _ => exact absurd h id

theorem passes_perform (command : Command) (s : BridgeSession × World) :
    PassesOnFrom t (BridgeSession.task s command) n (bearing t) .any (perform command) s := by
  cases command with
  | advance d => exact (passes_lift (.of_plays (Act.plays_wait d fun _ _ => trivial))).told s
  | prepare line =>
    refine PassesOnFrom.of_here fun k _ _ => ?_
    have hscript : Act.Passes t (task s (.prepare line)) k .any
        (Act.changeScript s.1.bridge.transport (·.add line)) :=
      .of_plays (Act.plays_changeScript _ _ fun _ _ => ⟨line, rfl⟩)
    exact (passes_lift hscript).told s
  | info =>
    exact (PassesOn.here.bind fun s _ _ _ =>
      (passes_lift (.of_plays (Act.plays_nextAllowed _))).told : PassesOn ..) s
  | name | apiVersion =>
    exact (passes_asking fun _ hb => .of_plays (Bridge.plays_aboutItself Task.admitsIdle
      (Task.cacheUsed (t.known hb.state)) _)).map fun _ _ _ _ => trivial
  | refresh =>
    refine (passes_asking fun _ hb => ?_).told
    exact Cache.passes_refresh hb.state (show (task s .refresh).refetches _ from ⟨rfl, _, rfl, rfl⟩)
  | config => exact PassesOn.here.told s
  | onState operation =>
    refine PassesOnFrom.of_here fun k _ hs => ?_
    have hperform : Act.Passes t (task s (.onState operation)) k .any
        (s.1.bridge.connection.state.perform operation) :=
      Cache.passes_perform hs.bridge.state fun hop => ⟨hop, _, rfl, rfl⟩
    exact (passes_lift hperform).told s
  | setUsername username =>
    exact .told (PassesOnFrom.liftActOn (passes_onBridge (Bridge.passes_switch _ _ _)))
  | setTransport lines =>
    refine (PassesOn.here.bind fun s _ _ _ => ?_ : PassesOn ..) s
    refine (passes_lift (.of_plays (Act.plays_latency _))).bind fun latency _ _ _ => ?_
    refine (passes_lift (.of_plays (Act.plays_addTransport _ fun _ => trivial))).bind
      fun transport _ _ _ => ?_
    exact .told fun s => PassesOnFrom.liftActOn (passes_onBridge (Bridge.passes_switch _ _ _))
  | pair =>
    refine (PassesOnFrom.ofActOn (passes_onBridge (Bridge.passes_pair _))).bind
      fun ending s' _ _ _ _ => ?_
    cases ending with
    | user username => exact Passes.pure trivial s'
    | timeout => exact (PassesOn.here.bind fun _ _ _ _ => .throw _ : PassesOn ..) s'
    | unfinished => exact Passes.throw _ s'
  | onSection which operation =>
    refine .told (Q := .any) (PassesOnFrom.liftActOn (passes_onBridge ?_))
    refine passes_onSection which fun l hl => passes_performOn which ⟨fun hop => ?_, ?_⟩
    · exact ⟨hop, l.cache, congrArg some hl.symm, rfl⟩
    · rintro id rfl
      exact ⟨congrArg some hl.symm, rfl⟩
  | onScenes operation =>
    refine .told (Q := .any) (PassesOnFrom.liftActOn (passes_onBridge (Bridge.passes_onScenes ?_)))
    refine Collection.passes_perform ⟨fun hop => ⟨hop, _, rfl, rfl⟩, ?_⟩
    rintro id rfl
    exact ⟨rfl, rfl⟩
  | sensorsOfKind kind =>
    refine .told (Q := .any) (PassesOnFrom.ofActOn (passes_onBridge ?_))
    exact Bridge.passes_onSensors (Sensors.passes_getAllOfKind kind _)
  | withLight | withGroup | withSchedule | withScene | withSensor => exact passes_onHandle _ s trivial
  | keepSection name which =>
    exact (PassesOn.here.bind fun _ _ _ hs => passes_keep name (hs.sectionCache which) :
      PassesOn ..) s
  | keepScenes name =>
    exact (PassesOn.here.bind fun _ _ _ hs => passes_keep name hs.bridge.scenes.cache :
      PassesOn ..) s
  | keepEntry name which id =>
    exact (PassesOnFrom.liftActOn (passes_onBridge (passes_entry which id _))).bind
      fun _ s' _ _ _ hr => passes_keep name hr s'
  | keepScene name id =>
    refine .bind (Q := Collection.entryBearing t) (PassesOnFrom.liftActOn (passes_onBridge ?_))
      fun _ s' _ _ _ hr => passes_keep name hr s'
    exact Bridge.passes_onScenes (Collection.passes_get id _)
  | onKept name operation =>
    refine PassesOnFrom.of_here fun k _ hs => PassesOnFrom.of_found rfl fun c hc => ?_
    have hperform : Act.Passes t (task s (.onKept name operation)) k .any (c.perform operation) :=
      Cache.passes_perform (Enduring.table_get? hs.kept hc) fun hop => ⟨hop, c, hc, rfl⟩
    exact (passes_lift hperform).told s
  | changeLight name id =>
    refine (PassesOnFrom.liftActOn (passes_onBridge (Bridge.passes_light id _))).bind
      fun _ s' _ _ _ hlight => ?_
    exact (PassesOn.ofActOn (PassesOn.beside (Handle.passes_change hlight _ _))).bind
      (fun _ _ _ hc => passes_keepChange name hc) s'
  | changeGroup name id =>
    refine (PassesOnFrom.liftActOn (passes_onBridge (Bridge.passes_group id _))).bind
      fun _ s' _ _ _ hgroup => ?_
    exact (PassesOn.ofActOn (PassesOn.beside (Handle.passes_change hgroup _ _))).bind
      (fun _ _ _ hc => passes_keepChange name hc) s'
  | onChange name operation =>
    refine ((passes_change name).bind fun c _ _ hc => .told (PassesOn.update fun _ _ hm hs => ?_) :
      PassesOn ..) s
    have hc' := Change.bearing_perform hc operation
    exact { hs with changes := Enduring.table_set hs.changes name (Enduring.mono _ hm hc') }
  | commit name =>
    refine .of_state fun k _ hs => PassesOnFrom.of_found rfl fun c hc => ?_
    have hbears : (Change.bearing t).At k c := Enduring.table_get? hs.changes hc
    refine (Passes.bind (PassesOn.update fun _ _ _ hs => ?_) fun _ m hm _ => ?_ : PassesOn ..) s
    · exact { hs with changes := Enduring.table_erase hs.changes name }
    · refine (passes_lift (Change.passes_commit (Enduring.mono _ hm hbears) ?_)).told
      exact fun body hbody cache hcache => ⟨c, body, hc, hbody, hcache, rfl⟩

end BridgeSession

end LightBridge
