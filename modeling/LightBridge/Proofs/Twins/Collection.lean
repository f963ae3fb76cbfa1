import LightBridge.Proofs.Resource.Play
import LightBridge.Proofs.Twins.Cache

/-!
# Collections side by side
-/

namespace LightBridge

variable {ι : Type} {t : Twins} {n m : Nat}

/-- The resource with other names. -/
def Resource.rename (r : Renaming) (e : Resource ι) : Resource ι :=
  { e with cache := e.cache.rename r }

instance : Named (Resource ι) where
  rename := Resource.rename
  Within t n e := e.cache.Within t n
  mono hnm h := h.mono hnm
  rename_rename r r' e := by
    simp only [Resource.rename, Cache.rename_rename]

namespace Collection

/-- The collection with other names. -/
def rename (r : Renaming) (l : Collection ι) : Collection ι :=
  { l with
    channel := l.channel.rename r
    cache := l.cache.rename r
    entries := Named.rename r l.entries }

/-- The collection and its entries belong to both runs. -/
structure Within (t : Twins) (n : Nat) (l : Collection ι) : Prop where
  channel : l.channel.Within t n
  cache : l.cache.Within t n
  entries : Named.Within t n l.entries

theorem Within.mono {l : Collection ι} (h : l.Within t n) (hnm : n ≤ m) : l.Within t m :=
  ⟨h.channel.mono hnm, h.cache.mono hnm, Named.mono hnm h.entries⟩

instance : Named (Collection ι) where
  rename := rename
  Within := Within
  mono hnm h := h.mono hnm
  rename_rename r r' l := by
    simp only [rename, Cache.rename_rename, Named.rename_rename]
    rfl

/-- The answer with other names. -/
def Answer.rename (r : Renaming) : Answer ι → Answer ι
  | .entry e => .entry (Named.rename r e)
  | .entries es => .entries (Named.rename r es)
  | answer => answer

/-- Entries in an answer belong to both runs. -/
def Answer.Within (t : Twins) (n : Nat) : Answer ι → Prop
  | .entry e => Named.Within t n e
  | .entries es => Named.Within t n es
  | _ => True

instance : Named (Answer ι) where
  rename := Answer.rename
  Within := Answer.Within
  mono {t n m answer} hnm h := by
    cases answer with
    | entry e => exact Named.mono hnm h
    | entries es => exact Named.mono (α := List (Resource ι)) hnm h
    | _ => trivial
  rename_rename r r' answer := by
    cases answer with
    | entry e => exact congrArg Answer.entry (Named.rename_rename r r' e)
    | entries es => exact congrArg Answer.entries (Named.rename_rename r r' es)
    | _ => rfl

/-! ## Entries -/

theorem held_rename (r : Renaming) (l : Collection ι) : (l.rename r).held = l.held.map r.name := by
  simp only [held, rename, Named.rename, List.map_cons, List.map_map, Cache.node_rename]
  congr 1
  exact List.map_congr_left fun e _ => Cache.node_rename r e.cache

theorem describe_rename [ResourceId ι] (r : Renaming) (l : Collection ι) :
    (l.rename r).describe = l.describe := by
  have hids : (Named.rename r l.entries).map (fun e => ResourceId.label e.id) =
      l.entries.map fun e => ResourceId.label e.id :=
    List.map_map
  unfold describe
  rw [rename, hids]

theorem isPinned_rename [DecidableEq ι] (r : Renaming) (l : Collection ι) (id : ι) :
    (l.rename r).isPinned id = l.isPinned id := rfl

theorem entry?_rename [DecidableEq ι] (r : Renaming) (l : Collection ι) (id : ι) :
    Collection.entry? (l.rename r) id = (l.entry? id).map (Named.rename r) :=
  List.find?_map

theorem isMaterialized_rename [DecidableEq ι] (r : Renaming) (l : Collection ι) (id : ι) :
    (l.rename r).isMaterialized id = l.isMaterialized id := by
  rw [isMaterialized, isMaterialized, entry?_rename, Option.isSome_map]

theorem filter_rename (r : Renaming) (p : Resource ι → Bool)
    (hp : ∀ e : Resource ι, p (e.rename r) = p e) (entries : List (Resource ι)) :
    (Named.rename r entries).filter p = Named.rename r (entries.filter p) := by
  show (entries.map (Resource.rename r)).filter p = (entries.filter p).map (Resource.rename r)
  rw [List.filter_map]
  congr 1
  exact List.filter_congr fun e _ => hp e

theorem drop_rename [DecidableEq ι] (r : Renaming) (l : Collection ι) (id : ι) :
    (l.rename r).drop id = (l.drop id).rename r := by
  simp only [drop, rename, filter_rename r (fun e => e.id ≠ id) (fun _ => rfl)]

theorem retain_rename [DecidableEq ι] [ResourceId ι] (r : Renaming) (l : Collection ι)
    (fields : Fields) : (l.rename r).retain fields = (l.retain fields).rename r := by
  have h := filter_rename r
    (fun e => l.isPinned e.id || Fields.has fields (ResourceId.key e.id)) (fun _ => rfl) l.entries
  simp only [retain, isPinned_rename]
  exact congrArg (fun entries => ({ l.rename r with entries } : Collection ι)) h

theorem insertEntry_rename [ResourceId ι] (r : Renaming) (e : Resource ι)
    (entries : List (Resource ι)) :
    insertEntry (e.rename r) (Named.rename r entries) = Named.rename r (insertEntry e entries) := by
  induction entries with
  | nil => rfl
  | cons f rest ih =>
    show insertEntry (e.rename r) (f.rename r :: Named.rename r rest) = _
    rw [insertEntry, insertEntry]
    by_cases h : ResourceId.before e.id f.id
    · rw [if_pos h, if_pos (show ResourceId.before (e.rename r).id (f.rename r).id from h)]
      rfl
    · rw [if_neg h, if_neg (show ¬ ResourceId.before (e.rename r).id (f.rename r).id from h), ih]
      rfl

theorem add_rename [ResourceId ι] (r : Renaming) (l : Collection ι) (e : Resource ι) :
    (l.rename r).add (e.rename r) = (l.add e).rename r := by
  simp only [add, rename, insertEntry_rename]

variable {l : Collection ι}

theorem Within.filter (h : l.Within t n) (p : Resource ι → Bool) (pinned : List ι) :
    ({ l with entries := l.entries.filter p, pinned } : Collection ι).Within t n :=
  ⟨h.channel, h.cache, fun e he => h.entries e (List.mem_filter.mp he).1⟩

theorem Within.add [ResourceId ι] (h : l.Within t n) {e : Resource ι} (he : e.cache.Within t n) :
    (l.add e).Within t n := by
  refine ⟨h.channel, h.cache, fun f hf => ?_⟩
  rcases mem_insertEntry.mp hf with rfl | hf
  · exact he
  · exact h.entries f hf

theorem Within.of_entry? [DecidableEq ι] (h : l.Within t n) {id : ι} {e : Resource ι}
    (he : l.entry? id = some e) : e.cache.Within t n :=
  h.entries e (List.mem_of_find?_eq_some he)

/-! ## Operations of any collection -/

theorem alike_reported (hl : l.Within t n) :
    ActsAlike t n (.same Fields) l.reported (l.rename t.across).reported := by
  refine (Cache.alike_value hl.cache).bind fun m v _ _ h => ?_
  cases h
  cases v with
  | object fields => exact .pure rfl
  | _ =>
    rw [rename, Cache.path_rename]
    exact .throw nofun

theorem alike_reading {α : Type} {Q : Tie α} {f : Collection ι → Act α}
    (hf : ∀ m (l : Collection ι), n ≤ m → l.Within t m →
      ActsAlike t m Q (f l) (f (l.rename t.across))) :
    ActsOnAlike t n (.named t (Collection ι)) Q (reading f) (reading f) := by
  refine Alike.current.bind fun m l _ hm h => ?_
  obtain ⟨rfl, hl⟩ := h
  exact .lift (hf m l hm hl)

theorem alike_evict (hl : l.Within t n) (key : String) :
    ActsAlike t n .any (l.evict key) ((l.rename t.across).evict key) := by
  rw [evict_eq_forgiving, evict_eq_forgiving]
  exact Act.alike_forgiving (Cache.alike_patch hl.cache (without key))

theorem alike_materialize [ResourceId ι] (hl : l.Within t n) (id : ι) (key : String)
    (slice : Json) :
    ActsAlike t n (.named t (Collection ι × Resource ι)) (l.materialize id key slice)
      ((l.rename t.across).materialize id key slice) := by
  refine (Cache.alike_newChild hl.cache key).bind fun m cache _ hm h => ?_
  obtain ⟨rfl, hcache⟩ := h
  refine .pure ⟨?_, (hl.mono hm).add hcache, hcache⟩
  exact Prod.ext (add_rename t.across l ⟨id, slice, cache⟩) rfl

theorem alike_create [ResourceId ι] (hl : l.Within t n) (parameters : Json) :
    ActsAlike t n (.same ι) (l.create parameters) ((l.rename t.across).create parameters) := by
  refine (Channel.alike_request hl.channel .post l.path parameters).bind fun m reply _ hm h => ?_
  cases h
  refine (Act.alike_ofExcept (Q := .any) (fun _ _ => trivial) fun _ =>
    Reply.check_ne_timeOverflow).andThen ?_
  dsimp only [rename]
  generalize ((Reply.createdToken? reply).bind fun token =>
    (ResourceId.ofToken? (bareToken l.path token) : Option ι)) = created
  cases created with
  | none => exact .pure rfl
  | some id => exact (Cache.alike_refresh (hl.cache.mono hm)).andThen (.pure rfl)

section Equality

variable [DecidableEq ι]

theorem alike_reread {e : Resource ι} (he : e.cache.Within t n) :
    ActsOnAlike t n (.named t (Collection ι)) (.named t (Resource ι)) (reread e)
      (reread (e.rename t.across)) := by
  rintro ⟨l, w⟩ ⟨l', w'⟩ hn hworlds ⟨hl', hl⟩
  cases hl'
  have hends := Cache.alike_value he w w' hn hworlds trivial
  simp only [reread, Resource.rename]
  generalize e.cache.value w = x at hends ⊢
  generalize (e.cache.rename t.across).value w' = x' at hends ⊢
  cases hends with
  | ok _ hmoved =>
    refine .ok ⟨rfl, he.mono (Nat.le_trans hn hmoved.grown)⟩ ⟨hmoved.grown, hmoved.worlds, ?_, hmoved.sent⟩
    exact ⟨rfl, hl.mono hmoved.grown⟩
  | error h hmoved =>
    rename_i fault u u'
    have hkept : t.Moved Prod.snd (Tie.beside (.named t (Collection ι))) (l, w) (l.rename t.across, w')
        (l, u) (l.rename t.across, u') :=
      ⟨hmoved.grown, hmoved.worlds, ⟨rfl, hl.mono hmoved.grown⟩, hmoved.sent⟩
    cases fault with
    | notFound path =>
      refine .error h ⟨hmoved.grown, hmoved.worlds, ?_, hmoved.sent⟩
      -- both drop the entry unless it is pinned
      show (Tie.named t (Collection ι)).Rel _ (if l.isPinned e.id then l else l.drop e.id)
        (if l.isPinned e.id then l.rename t.across else (l.rename t.across).drop e.id)
      split
      · exact ⟨rfl, hl.mono hmoved.grown⟩
      · exact ⟨drop_rename _ _ _, (hl.mono hmoved.grown).filter _ _⟩
    | _ => exact .error h hkept

end Equality

variable [DecidableEq ι] [ResourceId ι]

theorem alike_materializeAll (hl : l.Within t n) (fields : Fields) :
    ActsAlike t n (.named t (Collection ι)) (l.materializeAll fields)
      ((l.rename t.across).materializeAll fields) := by
  induction fields generalizing l n with
  | nil => exact .pure ⟨rfl, hl⟩
  | cons field rest ih =>
    obtain ⟨key, slice⟩ := field
    rw [materializeAll, materializeAll]
    cases ResourceId.ofKey? (ι := ι) key with
    | none => exact ih hl
    | some id =>
      dsimp only
      rw [isMaterialized_rename]
      split
      · exact ih hl
      · refine (alike_materialize hl id key slice).bind fun m made _ _ h => ?_
        obtain ⟨rfl, hmade, -⟩ := h
        exact ih hmade

theorem alike_getAll :
    ActsOnAlike t n (.named t (Collection ι)) (.named t (List (Resource ι))) getAll getAll := by
  refine Alike.current.bind fun m l _ _ h => ?_
  obtain ⟨rfl, hl⟩ := h
  refine (Alike.lift (alike_reported hl)).bind fun m' fields _ hm' h => ?_
  cases h
  have hretain : (l.retain fields).Within t m' := (hl.mono hm').filter _ _
  have hall := alike_materializeAll hretain fields
  rw [← retain_rename] at hall
  refine (Alike.lift hall).bind fun m'' found _ _ h => ?_
  obtain ⟨rfl, hfound⟩ := h
  exact (Alike.become (I := .named t _) ⟨rfl, hfound⟩).andThen (.pure ⟨rfl, hfound.entries⟩)

theorem alike_get (id : ι) :
    ActsOnAlike t n (.named t (Collection ι)) (.named t (Resource ι)) (get id) (get id) := by
  refine Alike.current.bind fun m l _ _ h => ?_
  obtain ⟨rfl, hl⟩ := h
  have hentry : entry? (Named.rename t.across l) id = _ := entry?_rename t.across l id
  dsimp only
  rw [hentry]
  cases he : l.entry? id with
  | some e => exact alike_reread (hl.of_entry? he)
  | none =>
    refine (Alike.lift (Cache.alike_value hl.cache)).bind fun m' state _ hm' h => ?_
    cases h
    cases state.get? (ResourceId.key id) with
    | none => exact .throw nofun
    | some slice =>
      refine (Alike.lift (alike_materialize (hl.mono hm') id _ slice)).bind fun m'' made _ _ h => ?_
      obtain ⟨rfl, hmade, hcache⟩ := h
      exact (Alike.become (I := .named t _) ⟨rfl, hmade⟩).andThen (.pure ⟨rfl, hcache⟩)

theorem alike_exists? (hl : l.Within t n) (id : ι) :
    ActsAlike t n (.same Bool) (l.exists? id) ((l.rename t.across).exists? id) := by
  unfold exists?
  rw [isPinned_rename]
  split
  · exact .pure rfl
  · refine (Cache.alike_value hl.cache).bind fun m state _ _ h => ?_
    cases h
    exact .pure rfl

theorem alike_existsCached? (hl : l.Within t n) (id : ι) :
    ActsAlike t n (.same Bool) (l.existsCached? id) ((l.rename t.across).existsCached? id) := by
  unfold existsCached?
  rw [isPinned_rename, isMaterialized_rename]
  split
  · exact .pure rfl
  · refine (Cache.alike_peek hl.cache).bind fun m state _ _ h => ?_
    cases h
    exact .pure rfl

theorem alike_remove (id : ι) :
    ActsOnAlike t n (.named t (Collection ι)) (.same Bool) (remove id) (remove id) := by
  refine Alike.current.bind fun m l _ _ h => ?_
  obtain ⟨rfl, hl⟩ := h
  refine (Alike.lift (Channel.alike_request hl.channel .delete (l.entryPath id) (.object []))).bind
    fun m' reply _ hm' h => ?_
  cases h
  have hpath : (Named.rename t.across l).entryPath id = l.entryPath id := rfl
  dsimp only
  rw [hpath]
  split
  · have hdrop := congrArg (fun l' : Collection ι =>
      { l' with pinned := l.pinned.filter fun p => p ≠ id }) (drop_rename t.across l id)
    refine (Alike.become (I := .named t _) ⟨hdrop, (hl.mono hm').filter _ _⟩).andThen ?_
    exact (Alike.lift (alike_evict (hl.mono hm') _)).andThen (.pure rfl)
  · exact .pure rfl

theorem alike_perform (operation : Operation ι) :
    ActsOnAlike t n (.named t (Collection ι)) (.named t (Answer ι)) (perform operation)
      (perform operation) := by
  cases operation with
  | getAll =>
    refine alike_getAll.map fun _ found _ _ h => ?_
    obtain ⟨rfl, hfound⟩ := h
    exact ⟨rfl, hfound⟩
  | get id =>
    refine (alike_get id).map fun _ found _ _ h => ?_
    obtain ⟨rfl, hfound⟩ := h
    exact ⟨rfl, hfound⟩
  | has id =>
    refine (alike_reading fun _ _ _ hl => alike_exists? hl id).map fun _ _ _ _ h => ?_
    cases h
    exact ⟨rfl, trivial⟩
  | hasCached id =>
    refine (alike_reading fun _ _ _ hl => alike_existsCached? hl id).map fun _ _ _ _ h => ?_
    cases h
    exact ⟨rfl, trivial⟩
  | isMaterialized id =>
    refine alike_reading fun m l _ _ => .pure ⟨?_, trivial⟩
    rw [isMaterialized_rename]
    rfl
  | remove id =>
    refine (alike_remove id).map fun _ _ _ _ h => ?_
    cases h
    exact ⟨rfl, trivial⟩
  | create parameters =>
    refine (alike_reading fun _ _ _ hl => alike_create hl parameters).map fun _ _ _ _ h => ?_
    cases h
    exact ⟨rfl, trivial⟩
  | refresh =>
    exact alike_reading fun _ _ _ hl =>
      (Cache.alike_refresh hl.cache).andThen (.pure ⟨rfl, trivial⟩)
  | path | username => exact alike_reading fun _ _ _ _ => .pure ⟨rfl, trivial⟩
  | describe =>
    refine alike_reading fun m l _ _ => .pure ⟨?_, trivial⟩
    rw [describe_rename]
    rfl

end Collection

/-! ## Groups -/

namespace Groups

variable {l : Collection Int32}

theorem alike_materializeAllLights (hl : l.Within t n) :
    ActsAlike t n (.named t (Collection Int32 × Resource Int32)) (materializeAllLights l)
      (materializeAllLights (l.rename t.across)) := by
  refine (Cache.alike_interval hl.cache).bind fun m interval _ hm h => ?_
  cases h
  refine (Cache.alike_newRoot _ (hl.channel.mono hm) interval).bind fun m' cache _ hm' h => ?_
  obtain ⟨rfl, hcache⟩ := h
  refine (Cache.alike_value hcache).bind fun m'' slice _ hm'' h => ?_
  cases h
  have hcache := Named.mono hm'' hcache
  have hadd := (hl.mono (Nat.le_trans hm (Nat.le_trans hm' hm''))).add
    (e := ⟨allLights, slice, cache⟩) hcache
  refine .pure ⟨?_, ⟨hadd.channel, hadd.cache, hadd.entries⟩, hcache⟩
  have h := Collection.add_rename t.across l ⟨allLights, slice, cache⟩
  exact Prod.ext
    (congrArg (fun l' : Collection Int32 => { l' with pinned := allLights :: l.pinned }) h) rfl

theorem alike_get (id : Int32) :
    ActsOnAlike t n (.named t (Collection Int32)) (.named t (Resource Int32)) (get id) (get id) := by
  unfold get
  split
  · refine Alike.current.bind fun m l _ _ h => ?_
    obtain ⟨rfl, hl⟩ := h
    have hentry : Collection.entry? (Named.rename t.across l) id = _ :=
      Collection.entry?_rename t.across l id
    dsimp only
    rw [hentry]
    cases he : l.entry? id with
    | some e =>
      have hcache := hl.of_entry? he
      refine (Alike.lift (Cache.alike_value hcache)).bind fun m' _ _ hm' _ => ?_
      exact .pure ⟨rfl, hcache.mono hm'⟩
    | none =>
      refine (Alike.lift (alike_materializeAllLights hl)).bind fun m' made _ _ h => ?_
      obtain ⟨rfl, hmade, hcache⟩ := h
      exact (Alike.become (I := .named t _) ⟨rfl, hmade⟩).andThen (.pure ⟨rfl, hcache⟩)
  · exact Collection.alike_get id

theorem alike_exists? (hl : l.Within t n) (id : Int32) :
    ActsAlike t n (.same Bool) (exists? l id) (exists? (l.rename t.across) id) := by
  unfold exists?
  split
  · exact .pure rfl
  · exact Collection.alike_exists? hl id

theorem alike_existsCached? (hl : l.Within t n) (id : Int32) :
    ActsAlike t n (.same Bool) (existsCached? l id) (existsCached? (l.rename t.across) id) := by
  unfold existsCached?
  split
  · exact .pure rfl
  · exact Collection.alike_existsCached? hl id

theorem alike_perform (operation : Collection.Operation Int32) :
    ActsOnAlike t n (.named t (Collection Int32)) (.named t (Collection.Answer Int32))
      (perform operation) (perform operation) := by
  have hplain := Collection.alike_perform (t := t) (n := n) operation
  cases operation with
  | get id =>
    refine (alike_get id).map fun _ found _ _ h => ?_
    obtain ⟨rfl, hfound⟩ := h
    exact ⟨rfl, hfound⟩
  | has id =>
    refine (Collection.alike_reading fun _ _ _ hl => alike_exists? hl id).map fun _ _ _ _ h => ?_
    cases h
    exact ⟨rfl, trivial⟩
  | hasCached id =>
    refine (Collection.alike_reading fun _ _ _ hl => alike_existsCached? hl id).map
      fun _ _ _ _ h => ?_
    cases h
    exact ⟨rfl, trivial⟩
  | _ => exact hplain

end Groups

/-! ## Sensors -/

theorem Sensors.alike_getAllOfKind (kind : String) :
    ActsOnAlike t n (.named t (Collection Int32)) (.named t (List (Resource Int32)))
      (getAllOfKind kind) (getAllOfKind kind) := by
  refine Alike.current.bind fun m l _ _ h => ?_
  obtain ⟨rfl, hl⟩ := h
  refine (Alike.lift (Collection.alike_reported hl)).bind fun m' fields _ _ h => ?_
  cases h
  refine Collection.alike_getAll.bind fun m'' all _ _ h => ?_
  obtain ⟨rfl, hall⟩ := h
  refine .pure ⟨?_, fun e he => hall e (List.mem_filter.mp he).1⟩
  exact Collection.filter_rename t.across _ (fun _ => rfl) all

end LightBridge
