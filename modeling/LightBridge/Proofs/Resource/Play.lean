import LightBridge.Proofs.Cache.Play
import LightBridge.Resource.Operation
import LightBridge.Resource.Sensor

/-!
# What collections do to a world

A collection sends through its own channel and through those of its caches, which it hands on to the
entries that it makes.
-/

namespace LightBridge

/-- Whatever collections over channels in `C` do is admitted. -/
structure Covers (P : World → Deed → Prop) (C : Channel → Prop) : Prop where
  idle : AdmitsIdle P
  channel : ∀ c, C c → c.Used P
  cache : ∀ c : Cache, c.Over C → c.Refetched P
  evicted : ∀ c : Cache, c.Over C → ∀ w key, P w (.update c (Collection.without key))

theorem Covers.used {P : World → Deed → Prop} {C : Channel → Prop} (hP : Covers P C) {c : Cache}
    (hc : c.Over C) : c.Used P := fun w _ => hP.cache c hc w

theorem covers_all : Covers (fun _ _ => True) fun _ => True :=
  ⟨⟨fun _ _ => trivial, fun _ => trivial⟩, fun _ _ _ _ _ => trivial, fun _ _ _ => trivial,
    fun _ _ _ _ => trivial⟩

theorem Scope.covers (p : Scope) : Covers p.Admits p.channel :=
  ⟨p.admitsIdle, fun _ => channelUsed, fun _ => Cache.Over.refetched, fun _ _ _ _ => trivial⟩

namespace Collection

variable {ι : Type} {C : Channel → Prop} {P : World → Deed → Prop}

/-- A collection and its entries use channels in `C` only. -/
structure Over (C : Channel → Prop) (l : Collection ι) : Prop where
  channel : C l.channel
  cache : l.cache.Over C
  entries : ∀ r ∈ l.entries, r.cache.Over C

theorem Over.mono {D : Channel → Prop} {l : Collection ι} (hl : l.Over C) (h : ∀ c, C c → D c) :
    l.Over D :=
  ⟨h _ hl.channel, h _ hl.cache, fun r hr => h _ (hl.entries r hr)⟩

theorem over_all (l : Collection ι) : l.Over fun _ => True := ⟨trivial, trivial, fun _ _ => trivial⟩

/-- Fewer entries use no more channels. -/
theorem Over.filter {l : Collection ι} (hl : l.Over C) (p : Resource ι → Bool) (pinned : List ι) :
    ({ l with entries := l.entries.filter p, pinned } : Collection ι).Over C :=
  ⟨hl.channel, hl.cache, fun r hr => hl.entries r (List.mem_filter.mp hr).1⟩

theorem plays_reported {l : Collection ι} (hl : l.cache.Used P) :
    Act.Plays P (fun _ => True) l.reported := by
  refine (Cache.plays_value hl).bind fun v _ => ?_
  cases v with
  | object fields => exact .pure fields trivial
  | _ => exact .throw _

/-- The failures of a patch that do not matter to an eviction: there is nothing to evict from. -/
def nothingHeld : Fault → Bool
  | .cacheEmpty _ | .notFound _ => true
  | _ => false

theorem evict_eq_forgiving (l : Collection ι) (key : String) :
    l.evict key = Act.forgiving nothingHeld (l.cache.patch (without key)) := by
  funext w
  unfold evict Act.forgiving
  cases l.cache.patch (without key) w with
  | ok => rfl
  | error e => cases e <;> rfl

theorem plays_evict (l : Collection ι) (key : String)
    (hP : ∀ w, P w (.update l.cache (without key))) :
    Act.Plays P (fun _ => True) (l.evict key) := by
  rw [evict_eq_forgiving]
  exact Act.plays_forgiving (Cache.plays_patch l.cache (without key) hP)

theorem plays_reading {α : Type} {Q : α → Prop} {f : Collection ι → Act α}
    (hf : ∀ l : Collection ι, l.Over C → Act.Plays P Q (f l)) :
    PlaysOn P (Over C) Q (reading f) :=
  PlaysOn.current.bind fun l hl => PlaysOn.lift (hf l hl)

section Entries

variable [ResourceId ι]

theorem mem_insertEntry {r e : Resource ι} {entries : List (Resource ι)} :
    e ∈ insertEntry r entries ↔ e = r ∨ e ∈ entries := by
  induction entries with
  | nil => simp [insertEntry]
  | cons f rest ih =>
    rw [insertEntry]
    split
    · exact List.mem_cons
    · rw [List.mem_cons, ih, List.mem_cons]
      exact or_left_comm

theorem Over.add {l : Collection ι} (hl : l.Over C) {r : Resource ι} (hr : r.cache.Over C) :
    (l.add r).Over C := by
  refine ⟨hl.channel, hl.cache, fun e he => ?_⟩
  rcases mem_insertEntry.mp he with rfl | he
  · exact hr
  · exact hl.entries e he

theorem plays_materialize (hidle : AdmitsIdle P) {l : Collection ι} (hl : l.Over C) (id : ι)
    (key : String) (slice : Json) :
    Act.Plays P (fun made => made.1.Over C ∧ made.2.cache.Over C) (l.materialize id key slice) := by
  refine (Cache.plays_newChild hidle l.cache key).bind fun cache hchild => .pure _ ?_
  obtain ⟨node, rfl⟩ := hchild
  exact ⟨hl.add (r := ⟨id, slice, .child l.cache node key⟩) hl.cache, hl.cache⟩

theorem plays_create {l : Collection ι} (hchannel : l.channel.Used P) (hcache : l.cache.Refetched P)
    (parameters : Json) : Act.Plays P (fun _ => True) (l.create parameters) := by
  refine (Channel.plays_request_of_used hchannel (by decide) l.path parameters).bind
    fun reply _ => ?_
  refine (Act.plays_ofExcept (Q := fun _ => True) _ fun _ _ => trivial).andThen ?_
  split
  · exact (Cache.plays_refresh hcache).andThen (.pure _ trivial)
  · exact .pure _ trivial

end Entries

section Equality

variable [DecidableEq ι]

theorem after_reread (r : Resource ι) (l : Collection ι) (w : World) :
    after (reread r) (l, w) = (l, after r.cache.value w) ∨
      l.isPinned r.id = false ∧ after (reread r) (l, w) = (l.drop r.id, after r.cache.value w) := by
  cases h : r.cache.value w with
  | ok v w' => exact .inl (by simp only [after, reread, h])
  | error e w' =>
    -- only an entry that is gone from the reply, and not pinned, is dropped
    cases e with
    | notFound path =>
      cases hp : l.isPinned r.id with
      | true => exact .inl (by simp only [after, reread, h, hp, if_pos])
      | false => exact .inr ⟨rfl, by simp only [after, reread, h, hp, Bool.false_eq_true, if_false]⟩
    | _ => exact .inl (by simp only [after, reread, h])

theorem eq_of_reread_ok {r found : Resource ι} {s s' : Collection ι × World}
    (h : reread r s = .ok found s') : found = r := by
  cases hv : r.cache.value s.2 with
  | ok v w' =>
    simp only [reread, hv] at h
    cases h
    rfl
  | error e w' => cases e <;> simp only [reread, hv, reduceCtorEq] at h

theorem plays_reread (hP : Covers P C) {r : Resource ι} (hr : r.cache.Over C) :
    PlaysOn P (Over C) (fun found => found.cache.Over C) (reread r) := by
  -- to the world this is reading the cache; the entry is dropped, at most, from the collection
  rintro ⟨l, w⟩ hl
  obtain ⟨deeds, hdeeds, hview, -, -⟩ := Cache.plays_value (hP.used hr) w trivial
  have hok : ∀ found s', reread r (l, w) = .ok found s' → found.cache.Over C := by
    intro found s' h
    rwa [eq_of_reread_ok h]
  rcases after_reread r l w with h | ⟨-, h⟩
  · exact ⟨deeds, hdeeds, by rw [h]; exact hview, by rw [h]; exact hl, hok⟩
  · exact ⟨deeds, hdeeds, by rw [h]; exact hview, by rw [h]; exact hl.filter _ _, hok⟩

theorem Over.of_entry? {l : Collection ι} (hl : l.Over C) {id : ι} {r : Resource ι}
    (h : l.entry? id = some r) : r.cache.Over C :=
  hl.entries r (List.mem_of_find?_eq_some h)

end Equality

variable [DecidableEq ι] [ResourceId ι]

theorem plays_materializeAll (hidle : AdmitsIdle P) {l : Collection ι} (hl : l.Over C)
    (fields : Fields) : Act.Plays P (Over C) (l.materializeAll fields) := by
  induction fields generalizing l with
  | nil => exact .pure l hl
  | cons field rest ih =>
    obtain ⟨key, slice⟩ := field
    rw [materializeAll]
    cases ResourceId.ofKey? (ι := ι) key with
    | none => exact ih hl
    | some id =>
      dsimp only
      split
      · exact ih hl
      · exact (plays_materialize hidle hl id key slice).bind fun made hmade => ih hmade.1

theorem plays_getAll (hP : Covers P C) :
    PlaysOn P (Over C) (fun found => ∀ r ∈ found, r.cache.Over C)
      (getAll : ActOn (Collection ι) _) := by
  refine PlaysOn.current.bind fun l hl => ?_
  refine (PlaysOn.lift (plays_reported (hP.used hl.cache))).bind fun fields _ => ?_
  -- what is not reported any more is dropped before the rest is made
  refine (PlaysOn.lift (plays_materializeAll hP.idle (hl.filter _ _) fields)).bind
    fun l' hl' => ?_
  exact (PlaysOn.become hl').andThen (.pure _ hl'.entries)

theorem plays_get (hP : Covers P C) (id : ι) :
    PlaysOn P (Over C) (fun found => found.cache.Over C) (get id : ActOn (Collection ι) _) := by
  refine PlaysOn.current.bind fun l hl => ?_
  cases h : l.entry? id with
  | some r => exact plays_reread hP (hl.of_entry? h)
  | none =>
    refine (PlaysOn.lift (Cache.plays_value (hP.used hl.cache))).bind fun state _ => ?_
    cases state.get? (ResourceId.key id) with
    | none => exact .throw _
    | some slice =>
      refine (PlaysOn.lift (plays_materialize hP.idle hl id _ slice)).bind fun made hmade => ?_
      exact (PlaysOn.become hmade.1).andThen (.pure _ hmade.2)

theorem plays_exists? {l : Collection ι} (hl : l.cache.Used P) (id : ι) :
    Act.Plays P (fun _ => True) (l.exists? id) := by
  unfold exists?
  split
  · exact .pure _ trivial
  · exact (Cache.plays_value hl).bind fun _ _ => .pure _ trivial

theorem plays_existsCached? (l : Collection ι) (id : ι) :
    Act.Plays P (fun _ => True) (l.existsCached? id) := by
  unfold existsCached?
  split
  · exact .pure _ trivial
  · exact (Cache.plays_peek l.cache).bind fun _ _ => .pure _ trivial

theorem plays_remove (hP : Covers P C) (id : ι) :
    PlaysOn P (Over C) (fun _ => True) (remove id : ActOn (Collection ι) _) := by
  refine PlaysOn.current.bind fun l hl => ?_
  refine (PlaysOn.lift (Channel.plays_request_of_used (hP.channel _ hl.channel) (by decide)
    _ _)).bind fun reply _ => ?_
  split
  · have hevict := plays_evict l (ResourceId.key id) fun w => hP.evicted _ hl.cache w _
    exact (PlaysOn.become (hl.filter _ _)).andThen
      ((PlaysOn.lift hevict).andThen (.pure _ trivial))
  · exact .pure _ trivial

/-- Whether an operation fetches also what is not stale. -/
def Operation.refetches {ι : Type} : Operation ι → Bool
  | .create _ | .refresh => true
  | _ => false

theorem plays_perform (hP : Covers P C) (operation : Operation ι) :
    PlaysOn P (Over C) (fun _ => True) (perform operation) := by
  cases operation with
  | getAll => exact (plays_getAll hP).map fun _ _ => trivial
  | get id => exact (plays_get hP id).map fun _ _ => trivial
  | has id =>
    exact (plays_reading fun _ hl => plays_exists? (hP.used hl.cache) id).map fun _ _ => trivial
  | hasCached id =>
    exact (plays_reading fun l _ => plays_existsCached? l id).map fun _ _ => trivial
  | isMaterialized id => exact plays_reading fun _ _ => .pure _ trivial
  | remove id => exact (plays_remove hP id).map fun _ _ => trivial
  | create parameters =>
    exact (plays_reading fun _ hl =>
      plays_create (hP.channel _ hl.channel) (hP.cache _ hl.cache) parameters).map fun _ _ => trivial
  | refresh =>
    exact plays_reading fun _ hl =>
      (Cache.plays_refresh (hP.cache _ hl.cache)).andThen (.pure _ trivial)
  | path | username | describe => exact plays_reading fun _ _ => .pure _ trivial

end Collection

/-! ## Groups -/

namespace Groups

variable {C : Channel → Prop} {P : World → Deed → Prop}

theorem plays_materializeAllLights (hP : Covers P C) {l : Collection Int32} (hl : l.Over C) :
    Act.Plays P (fun made => made.1.Over C ∧ made.2.cache.Over C) (materializeAllLights l) := by
  refine (Cache.plays_interval l.cache).bind fun interval _ => ?_
  refine (Cache.plays_newRoot hP.idle _ l.channel interval).bind fun cache hroot => ?_
  have hcache : cache.Over C := by
    obtain ⟨node, rfl⟩ := hroot
    exact hl.channel
  refine (Cache.plays_value (hP.used hcache)).bind fun slice _ => ?_
  -- the group of all lights has a root cache of its own, through the channel of the collection
  have hadd := hl.add (r := ⟨allLights, slice, cache⟩) hcache
  exact .pure _ ⟨⟨hadd.channel, hadd.cache, hadd.entries⟩, hcache⟩

theorem plays_get (hP : Covers P C) (id : Int32) :
    PlaysOn P (Collection.Over C) (fun found => found.cache.Over C) (get id) := by
  unfold get
  split
  · refine PlaysOn.current.bind fun l hl => ?_
    cases h : l.entry? id with
    | some r =>
      have hr := hl.of_entry? h
      exact (PlaysOn.lift (Cache.plays_value (hP.used hr))).andThen (.pure r hr)
    | none =>
      refine (PlaysOn.lift (plays_materializeAllLights hP hl)).bind fun made hmade => ?_
      exact (PlaysOn.become hmade.1).andThen (.pure _ hmade.2)
  · exact Collection.plays_get hP id

theorem plays_exists? {l : Collection Int32} (hl : l.cache.Used P) (id : Int32) :
    Act.Plays P (fun _ => True) (exists? l id) := by
  unfold exists?
  split
  · exact .pure _ trivial
  · exact Collection.plays_exists? hl id

theorem plays_existsCached? (l : Collection Int32) (id : Int32) :
    Act.Plays P (fun _ => True) (existsCached? l id) := by
  unfold existsCached?
  split
  · exact .pure _ trivial
  · exact Collection.plays_existsCached? l id

theorem plays_perform (hP : Covers P C) (operation : Collection.Operation Int32) :
    PlaysOn P (Collection.Over C) (fun _ => True) (perform operation) := by
  have hplain := Collection.plays_perform hP operation
  cases operation with
  | get id => exact (plays_get hP id).map fun _ _ => trivial
  | has id =>
    exact (Collection.plays_reading fun _ hl => plays_exists? (hP.used hl.cache) id).map
      fun _ _ => trivial
  | hasCached id =>
    exact (Collection.plays_reading fun l _ => plays_existsCached? l id).map fun _ _ => trivial
  | _ => exact hplain

end Groups

/-! ## Sensors -/

namespace Sensors

theorem plays_getAllOfKind {C : Channel → Prop} {P : World → Deed → Prop} (hP : Covers P C)
    (kind : String) :
    PlaysOn P (Collection.Over C) (fun _ => True) (getAllOfKind kind) := by
  refine PlaysOn.current.bind fun l hl => ?_
  refine (PlaysOn.lift (Collection.plays_reported (hP.used hl.cache))).bind fun fields _ => ?_
  exact (Collection.plays_getAll hP).bind fun all _ => .pure _ trivial

end Sensors

end LightBridge
