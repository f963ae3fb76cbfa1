import LightBridge.Proofs.Resource.Entries
import LightBridge.Proofs.Resource.Existence

/-!
# The group of all lights

A bridge serves group 0 and never reports it among its groups. Its entry is made by the collection of
groups alone, with a root cache of its own, and is pinned, so that nothing but a confirmed removal
takes it away: neither a listing nor a read through the plain collection.
-/

namespace LightBridge

namespace Cache

variable {node : NodeId} {path : String} {channel : Channel} {interval : Duration} {w : World}

/-- A read of a root sends requests for its path and nothing else. -/
theorem sent_value_root :
    ∃ times : List Instant, (after (Cache.root node path channel interval).value w).sent =
      w.sent ++ times.map (⟨·, channel.compose .get path (.object [])⟩) := by
  by_cases hstale : outcome (Cache.root node path channel interval).needsRefresh w = .ok true
  · rw [after_value_of_stale hstale]
    obtain ⟨times, -, hsent⟩ := sent_fetch node path channel w
    exact ⟨times, hsent⟩
  · rw [after_value_of_not_stale hstale]
    exact ⟨[], (List.append_nil _).symm⟩

/-- A read of a root leaves what other roots hold. -/
theorem snapshots_value_root {other : NodeId} (h : other ≠ node) :
    (after (Cache.root node path channel interval).value w).snapshots.get? other =
      w.snapshots.get? other := by
  by_cases hstale : outcome (Cache.root node path channel interval).needsRefresh w = .ok true
  · rw [after_value_of_stale hstale]
    show (w.enact (.fetch node path channel interval)).snapshots.get? other = _
    apply World.snapshots_fetch_of_not_good
    intro f hf hgood
    cases hf
    exact h hgood.1.symm
  · rw [after_value_of_not_stale hstale]

end Cache

namespace Groups

open Collection (Reports)

variable {l l' : Collection Int32} {r : Resource Int32} {w w' : World}

/-! ## Whose root it is -/

/-- The entry reads from a root of its own, at the path of group 0. -/
def OwnRoot (l : Collection Int32) (r : Resource Int32) : Prop :=
  ∃ node, node ≠ l.cache.rootNode ∧
    r.cache = .root node (l.entryPath allLights) l.channel l.cache.rootInterval

/-- An entry of group 0 is pinned and has its own root. -/
def Served (l : Collection Int32) : Prop :=
  ∀ r ∈ l.entries, r.id = allLights → allLights ∈ l.pinned ∧ OwnRoot l r

/-- The keys of the state of the collection, as far as it is held. -/
def reportedKeys (s : Collection Int32 × World) : List String :=
  match s.1.cache.place? s.2 with
  | some (.object fields) => Fields.keys fields
  | _ => []

/-- No key denotes group 0. -/
def Unreported (s : Collection Int32 × World) : Prop :=
  ∀ key ∈ reportedKeys s, readInt32? key ≠ some allLights

instance (s : Collection Int32 × World) : Decidable (Unreported s) :=
  inferInstanceAs (Decidable (∀ key ∈ reportedKeys s, readInt32? key ≠ some allLights))

theorem Unreported.not_reports {s : Collection Int32 × World} (h : Unreported s) {fields : Fields}
    (hplace : s.1.cache.place? s.2 = some (.object fields)) : ¬ Reports fields allLights := by
  rintro ⟨key, hkey, hid⟩
  refine h key ?_ hid
  rw [reportedKeys, hplace]
  exact hkey

/-- The same collection, but for the entries of other groups. -/
structure SameAllLights (l l' : Collection Int32) : Prop where
  channel : l'.channel = l.channel
  cache : l'.cache = l.cache
  path : l'.path = l.path
  entries : ∀ r, r.id = allLights → (r ∈ l'.entries ↔ r ∈ l.entries)
  pinned : allLights ∈ l'.pinned ↔ allLights ∈ l.pinned

namespace SameAllLights

theorem refl (l : Collection Int32) : SameAllLights l l :=
  ⟨rfl, rfl, rfl, fun _ _ => Iff.rfl, Iff.rfl⟩

theorem served (h : SameAllLights l l') (hl : Served l) : Served l' := by
  intro r hr hid
  obtain ⟨hpinned, node, hnode, hcache⟩ := hl r ((h.entries r hid).mp hr) hid
  refine ⟨h.pinned.mpr hpinned, node, ?_, ?_⟩
  · rwa [h.cache]
  · rw [hcache, Collection.entryPath, Collection.entryPath, h.path, h.channel, h.cache]

/-- Entries of other groups come and go. -/
theorem filter {p : Resource Int32 → Bool}
    (hp : ∀ r ∈ l.entries, r.id = allLights → p r = true) :
    SameAllLights l { l with entries := l.entries.filter p } := by
  refine ⟨rfl, rfl, rfl, fun r hid => ?_, Iff.rfl⟩
  rw [List.mem_filter]
  exact and_iff_left_of_imp fun hr => hp r hr hid

theorem add (h : r.id ≠ allLights) : SameAllLights l (l.add r) := by
  refine ⟨rfl, rfl, rfl, fun e hid => ?_, Iff.rfl⟩
  rw [Collection.add, Collection.mem_insertEntry]
  refine or_iff_right fun heq => h ?_
  rwa [← heq]

theorem trans {l'' : Collection Int32} (h : SameAllLights l l') (h' : SameAllLights l' l'') :
    SameAllLights l l'' :=
  ⟨h'.channel.trans h.channel, h'.cache.trans h.cache, h'.path.trans h.path,
    fun r hid => (h'.entries r hid).trans (h.entries r hid), h'.pinned.trans h.pinned⟩

theorem foldl_add {made : List (Resource Int32)} (h : ∀ r ∈ made, r.id ≠ allLights) :
    SameAllLights l (made.foldl Collection.add l) := by
  induction made generalizing l with
  | nil => exact refl l
  | cons e rest ih =>
    have hrest := ih (l := l.add e) fun r hr => h r (List.mem_cons_of_mem e hr)
    exact (add (h e List.mem_cons_self)).trans hrest

end SameAllLights

/-! ## The plain collection -/

/-- A listing makes no entry of a group that is not reported, and drops none that is pinned. -/
theorem same_getAll (hl : Served l) (h : Unreported (after Collection.getAll (l, w))) :
    SameAllLights l (after Collection.getAll (l, w)).1 := by
  cases hrun : Collection.getAll (l, w) with
  | error e s =>
    rw [after_of_error hrun, Collection.eq_of_getAll_error hrun]
    exact .refl l
  | ok found s =>
    obtain ⟨fields, u, made, hvalue, hmakes, hfound, hl', hw'⟩ :=
      Collection.exists_fields_of_getAll hrun
    rw [after_of_ok hrun] at h ⊢
    have hplace : s.1.cache.place? s.2 = some (.object fields) := by
      have hcache : s.1.cache = l.cache := by rw [hl']
      rw [hcache, hw']
      have hview := Cache.view_play_newNode (Cache.view_of_value hvalue).1 made.length
      exact (Cache.view_eq_ok_iff_place?.mp hview).2
    have hmade : ∀ r ∈ made, r.id ≠ allLights := by
      intro r hr hid
      apply h.not_reports hplace
      rw [← hid]
      exact ((hmakes.ids r.id).mp ⟨r, hr, rfl⟩).2
    have hsame : s.1 = made.foldl Collection.add (l.retain fields) := by
      rw [Collection.foldl_add, ← hfound, hl']
      rfl
    rw [hsame]
    refine (SameAllLights.filter fun r hr hid => ?_).trans (.foldl_add hmade)
    rw [Bool.or_eq_true, Collection.isPinned_iff, hid]
    exact .inl (hl r hr hid).1

/-- A read drops no entry that is pinned, and makes none that is not reported. -/
theorem same_get {id : Int32} (hl : Served l)
    (h : Unreported (after (Collection.get id) (l, w))) :
    SameAllLights l (after (Collection.get id) (l, w)).1 := by
  have hends := Collection.ends_get l w id
  simp only [after] at h ⊢
  generalize Collection.get id (l, w) = result at hends h ⊢
  cases hends with
  | found | failed | unread | unreported => exact .refl l
  | lost hentry hvalue hpinned =>
    refine .filter fun e he hid => decide_eq_true fun heq => ?_
    -- the dropped entry is not pinned, so it is none of group 0
    have hmem := (hl e he hid).1
    rw [← hid, heq, ← Collection.isPinned_iff, hpinned] at hmem
    cases hmem
  | made hentry hvalue hslice hr =>
    subst hr
    refine .add fun hid => ?_
    obtain ⟨fields, rfl, hfield⟩ := Json.exists_fields_of_get? hslice
    have hview := (Cache.view_of_value hvalue).1
    have hplace := (Cache.view_eq_ok_iff_place?.mp (Cache.view_play_newNode hview 1)).2
    apply h.not_reports hplace
    refine ⟨ResourceId.key id, ?_, ?_⟩
    · rw [← Fields.has_eq_true_iff, Fields.has, hfield]
      rfl
    · rw [← hid]
      exact readInt32?_int32Text id

theorem same_remove {id : Int32} (h : id = allLights → l.deletionConfirmed id w = false) :
    SameAllLights l (after (Collection.remove id) (l, w)).1 := by
  rw [Collection.after_remove]
  by_cases hid : id = allLights
  · rw [h hid, if_neg Bool.false_ne_true]
    exact .refl l
  · split
    · have hne : ∀ r : Resource Int32, r.id = allLights → r.id ≠ id :=
        fun r hr heq => hid (heq ▸ hr)
      refine ⟨rfl, rfl, rfl, fun r hr => ?_, ?_⟩
      · show r ∈ l.entries.filter _ ↔ _
        rw [List.mem_filter]
        exact and_iff_left (decide_eq_true (hne r hr))
      · rw [List.mem_filter]
        exact and_iff_left (decide_eq_true (Ne.symm hid))
    · exact .refl l

/-! ## The collection of groups -/

/-- The root that group 0 gets when it is asked for. -/
def ownRoot (l : Collection Int32) (w : World) : Cache :=
  .root w.fresh (l.entryPath allLights) l.channel l.cache.rootInterval

/-- The collection with group 0. -/
def withAllLights (l : Collection Int32) (r : Resource Int32) : Collection Int32 :=
  { l.add r with pinned := allLights :: l.pinned }

/-- The ways in which asking for group 0 ends. -/
inductive ReadEnds (l : Collection Int32) (w : World) :
    EStateM.Result Fault (Collection Int32 × World) (Resource Int32) → Prop where
  /-- The entry that there was could be read again. -/
  | found {r : Resource Int32} {v : Json} {u : World} (hentry : l.entry? allLights = some r)
    (hvalue : r.cache.value w = .ok v u) : ReadEnds l w (.ok r (l, u))
  /-- The entry could not be read, and stays. -/
  | failed {r : Resource Int32} {e : Fault} {u : World} (hentry : l.entry? allLights = some r)
    (hvalue : r.cache.value w = .error e u) : ReadEnds l w (.error e (l, u))
  /-- There is no entry, and the collection is detached. -/
  | cut {e : Fault} (hentry : l.entry? allLights = none) (hlinked : l.cache.linked w = .error e) :
    ReadEnds l w (.error e (l, w))
  /-- There is no entry, and the root that it would read from could not be read. -/
  | unread {e : Fault} {u : World} (hentry : l.entry? allLights = none)
    (hvalue : (ownRoot l w).value (w.step .newNode) = .error e u) : ReadEnds l w (.error e (l, u))
  /-- The first time, group 0 is made once its own root could be read. -/
  | made {slice : Json} {u : World} {r : Resource Int32} (hentry : l.entry? allLights = none)
    (hvalue : (ownRoot l w).value (w.step .newNode) = .ok slice u)
    (hr : r = ⟨allLights, slice, ownRoot l w⟩) : ReadEnds l w (.ok r (withAllLights l r, u))

theorem ends_get (l : Collection Int32) (w : World) : ReadEnds l w (get allLights (l, w)) := by
  unfold get
  cases hentry : l.entry? allLights with
  | some r =>
    simp only [if_true, bind, EStateM.bind, ActOn.current, hentry]
    cases hvalue : r.cache.value w with
    | ok v u =>
      rw [lift_eq_of_ok hvalue]
      exact .found hentry hvalue
    | error e u =>
      rw [lift_eq_of_error hvalue]
      exact .failed hentry hvalue
  | none =>
    simp only [if_true, bind, EStateM.bind, ActOn.current, hentry]
    cases hlinked : l.cache.linked w with
    | error e =>
      have hmake : materializeAllLights l w = .error e w := by
        simp only [materializeAllLights, bind, EStateM.bind, Cache.interval_eq, hlinked]
      rw [lift_eq_of_error hmake]
      exact .cut hentry hlinked
    | ok _ =>
      have hnew : Cache.newRoot (l.entryPath allLights) l.channel l.cache.rootInterval w =
          .ok (ownRoot l w) (w.step .newNode) := rfl
      cases hvalue : (ownRoot l w).value (w.step .newNode) with
      | error e u =>
        have hmake : materializeAllLights l w = .error e u := by
          simp only [materializeAllLights, bind, EStateM.bind, Cache.interval_eq, hlinked, hnew,
            hvalue]
        rw [lift_eq_of_error hmake]
        exact .unread hentry hvalue
      | ok slice u =>
        have hmake : materializeAllLights l w =
            .ok (withAllLights l ⟨allLights, slice, ownRoot l w⟩,
              ⟨allLights, slice, ownRoot l w⟩) u := by
          simp only [materializeAllLights, bind, EStateM.bind, Cache.interval_eq, hlinked, hnew,
            hvalue]
          rfl
        rw [lift_eq_of_ok hmake]
        exact .made hentry hvalue rfl

/-- To the world, asking for group 0 is reading its own root. -/
theorem world_get (hl : Served l) (hmade : l.cache.rootNode < w.fresh) :
    (after (get allLights) (l, w)).2 = w ∨
      ∃ node u, node ≠ l.cache.rootNode ∧ u.sent = w.sent ∧ u.snapshots = w.snapshots ∧
        (after (get allLights) (l, w)).2 =
          after (Cache.root node (l.entryPath allLights) l.channel l.cache.rootInterval).value u := by
  have hworld : (after (get allLights) (l, w)).2 = w ∨
      (∃ r, l.entry? allLights = some r ∧
        (after (get allLights) (l, w)).2 = after r.cache.value w) ∨
      (after (get allLights) (l, w)).2 = after (ownRoot l w).value (w.step .newNode) := by
    have hends := ends_get l w
    rw [after]
    generalize get allLights (l, w) = result at hends ⊢
    cases hends with
    | found hentry hvalue => exact .inr (.inl ⟨_, hentry, (after_of_ok hvalue).symm⟩)
    | failed hentry hvalue => exact .inr (.inl ⟨_, hentry, (after_of_error hvalue).symm⟩)
    | cut => exact .inl rfl
    | unread _ hvalue => exact .inr (.inr (after_of_error hvalue).symm)
    | made _ hvalue => exact .inr (.inr (after_of_ok hvalue).symm)
  rcases hworld with hsame | ⟨r, hentry, hread⟩ | hmake
  · exact .inl hsame
  · obtain ⟨hmem, hid⟩ := Collection.mem_of_entry? hentry
    obtain ⟨-, node, hnode, hcache⟩ := hl r hmem hid
    exact .inr ⟨node, w, hnode, rfl, rfl, hcache ▸ hread⟩
  · exact .inr ⟨w.fresh, w.step .newNode, Nat.ne_of_gt hmade, rfl, rfl, hmake⟩

theorem get_of_ok {w' : World} (hl : Served l) (hmade : l.cache.rootNode < w.fresh)
    (h : get allLights (l, w) = .ok r (l', w')) :
    r.id = allLights ∧ OwnRoot l r ∧ (l' = l ∧ r ∈ l.entries ∨
      l.isMaterialized allLights = false ∧ l' = withAllLights l r) := by
  have hends := ends_get l w
  rw [h] at hends
  cases hends with
  | found hentry hvalue =>
    obtain ⟨hmem, hid⟩ := Collection.mem_of_entry? hentry
    exact ⟨hid, (hl r hmem hid).2, .inl ⟨rfl, hmem⟩⟩
  | made hentry hvalue hr =>
    have hnew := Collection.isMaterialized_of_entry?_eq_none hentry
    subst hr
    exact ⟨rfl, ⟨w.fresh, Nat.ne_of_gt hmade, rfl⟩, .inr ⟨hnew, rfl⟩⟩

theorem eq_of_get_error {e : Fault} {w' : World} (h : get allLights (l, w) = .error e (l', w')) :
    l' = l := by
  have hends := ends_get l w
  rw [h] at hends
  cases hends <;> rfl

/-! ## Turns -/

/-- Somebody asks the collection, of groups or the plain one beneath, or does something else to the
world. -/
inductive Turn where
  | ask (plain : Bool) (operation : Collection.Operation Int32)
  | elsewhere (d : Deed)

namespace Turn

/-- The collection and the world after a turn. -/
def take (s : Collection Int32 × World) : Turn → Collection Int32 × World
  | .ask true operation => after (Collection.perform operation) s
  | .ask false operation => after (perform operation) s
  | .elsewhere d => (s.1, s.2.enact d)

/-- The turn is a removal of group 0 that the bridge confirms. -/
def Removes (s : Collection Int32 × World) : Turn → Prop
  | .ask _ (.remove id) => id = allLights ∧ s.1.deletionConfirmed allLights s.2 = true
  | _ => False

end Turn

/-- The collection and the world after several turns. -/
def takeAll (s : Collection Int32 × World) (turns : List Turn) : Collection Int32 × World :=
  turns.foldl Turn.take s

/-- Before and after each of several turns, no group 0 is reported. -/
def UnreportedThroughout (s : Collection Int32 × World) : List Turn → Prop
  | [] => Unreported s
  | t :: rest => Unreported s ∧ UnreportedThroughout (t.take s) rest

instance : (s : Collection Int32 × World) → (turns : List Turn) →
    Decidable (UnreportedThroughout s turns)
  | s, [] => inferInstanceAs (Decidable (Unreported s))
  | s, t :: rest =>
    have : Decidable (UnreportedThroughout (t.take s) rest) := instDecidableUnreportedThroughout _ _
    inferInstanceAs (Decidable (Unreported s ∧ UnreportedThroughout (t.take s) rest))

/-- None of several turns removes group 0. -/
def KeptThroughout (s : Collection Int32 × World) : List Turn → Prop
  | [] => True
  | t :: rest => ¬ t.Removes s ∧ KeptThroughout (t.take s) rest

/-- What holds before and after every turn. -/
structure Invariant (s : Collection Int32 × World) : Prop where
  regular : s.1.Regular
  served : Served s.1
  made : s.1.cache.rootNode < s.2.fresh

variable {s : Collection Int32 × World} {t : Turn}

/-- A removal of group 0 that is confirmed, as a collection sees it. -/
structure Forgotten (l l' : Collection Int32) : Prop where
  cache : l'.cache = l.cache
  entries : ∀ r ∈ l'.entries, r.id ≠ allLights

theorem forgotten_of_confirmed (h : l.deletionConfirmed allLights w = true) :
    Forgotten l (after (Collection.remove allLights) (l, w)).1 := by
  rw [Collection.after_remove, h, if_pos rfl]
  exact ⟨rfl, fun r hr => of_decide_eq_true (List.mem_filter.mp hr).2⟩

/-- What becomes of group 0: nothing, or it is forgotten after a removal, or it is made with a root
of its own. -/
def Fate (l : Collection Int32) (removed : Prop) (l' : Collection Int32) : Prop :=
  SameAllLights l l' ∨ removed ∧ Forgotten l l' ∨
    ∃ r, OwnRoot l r ∧ l.isMaterialized allLights = false ∧ l' = withAllLights l r

theorem fate_plain (plain : Bool) (operation : Collection.Operation Int32) (hs : Served s.1)
    (h : Unreported (after (Collection.perform operation) s)) :
    Fate s.1 ((Turn.ask plain operation).Removes s)
      (after (Collection.perform operation) s).1 := by
  rcases Collection.after_perform operation s with heq | ⟨-, heq⟩ | ⟨id, -, heq⟩ | ⟨id, hop, heq⟩
  · rw [heq]
    exact .inl (.refl s.1)
  · rw [heq] at h ⊢
    exact .inl (same_getAll hs h)
  · rw [heq] at h ⊢
    exact .inl (same_get hs h)
  · rw [heq, hop]
    by_cases hremoved : id = allLights ∧ s.1.deletionConfirmed allLights s.2 = true
    · obtain ⟨rfl, hconfirmed⟩ := hremoved
      exact .inr (.inl ⟨⟨rfl, hconfirmed⟩, forgotten_of_confirmed hconfirmed⟩)
    · refine .inl (same_remove fun hid => ?_)
      rw [← Bool.not_eq_true, hid]
      exact fun hconfirmed => hremoved ⟨hid, hconfirmed⟩

theorem fate_get (hs : Invariant s) (removed : Prop) :
    Fate s.1 removed (after (get allLights) s).1 := by
  cases hrun : get allLights s with
  | error e u =>
    rw [after_of_error hrun, eq_of_get_error hrun]
    exact .inl (.refl s.1)
  | ok r u =>
    rw [after_of_ok hrun]
    obtain ⟨-, hroot, ⟨heq, -⟩ | ⟨hnew, heq⟩⟩ := get_of_ok hs.served hs.made hrun
    · rw [heq]
      exact .inl (.refl s.1)
    · exact .inr (.inr ⟨r, hroot, hnew, heq⟩)

theorem fate_take (hs : Invariant s) (h : Unreported (t.take s)) :
    Fate s.1 (t.Removes s) (t.take s).1 := by
  cases t with
  | elsewhere d => exact .inl (.refl s.1)
  | ask plain operation =>
    cases plain with
    | true => exact fate_plain true operation hs.served h
    | false =>
      have hplain := fate_plain false operation hs.served
      cases operation with
      | get id =>
        have hafter : after (perform (.get id)) s = after (get id) s := after_map _ _ _
        rw [Turn.take, hafter] at h ⊢
        by_cases hid : id = allLights
        · subst hid
          exact fate_get hs _
        · have hget : get id = Collection.get id := if_neg hid
          rw [hget] at h ⊢
          exact .inl (same_get hs.served h)
      | has id | hasCached id =>
        refine .inl ?_
        show SameAllLights s.1 (after (_ <$> Collection.reading _) s).1
        rw [after_map, Collection.after_reading]
        exact .refl s.1
      | _ => exact hplain h

theorem fresh_le_take (s : Collection Int32 × World) (t : Turn) :
    s.2.fresh ≤ (t.take s).2.fresh := by
  have hplays {x : ActOn (Collection Int32) (Collection.Answer Int32)}
      (hx : PlaysOn (fun _ _ => True) (Collection.Over fun _ => True) (fun _ => True) x) :
      s.2.fresh ≤ (after x s).2.fresh := by
    obtain ⟨deeds, -, hafter, -⟩ := hx s s.1.over_all
    rw [hafter]
    exact World.fresh_le_enactAll _ _
  cases t with
  | elsewhere d => exact s.2.fresh_le_enact d
  | ask plain operation =>
    cases plain with
    | true => exact hplays (Collection.plays_perform covers_all operation)
    | false => exact hplays (plays_perform covers_all operation)

theorem Invariant.take (hs : Invariant s) (h : Unreported (t.take s)) : Invariant (t.take s) := by
  have hregular : (t.take s).1.Regular := by
    cases t with
    | elsewhere d => exact hs.regular
    | ask plain operation =>
      cases plain with
      | true => exact (Collection.keeps_perform operation s hs.regular).1
      | false => exact (keeps_perform operation s hs.regular).1
  have hcache : (t.take s).1.cache = s.1.cache ∧ Served (t.take s).1 := by
    rcases fate_take hs h with hsame | ⟨-, hgone⟩ | ⟨r, hroot, hnew, heq⟩
    · exact ⟨hsame.cache, hsame.served hs.served⟩
    · exact ⟨hgone.cache, fun r hr hid => absurd hid (hgone.entries r hr)⟩
    · rw [heq]
      refine ⟨rfl, fun e he hid => ⟨List.mem_cons_self, ?_⟩⟩
      rcases Collection.mem_insertEntry.mp he with rfl | he
      · exact hroot
      · -- there was no entry of group 0 before
        exact absurd hid (Collection.isMaterialized_eq_false_iff.mp hnew e he)
  refine ⟨hregular, hcache.2, ?_⟩
  rw [hcache.1]
  exact Nat.lt_of_lt_of_le hs.made (fresh_le_take s t)

/-- An entry of group 0 stays, unless its removal is confirmed. -/
theorem mem_take (hs : Invariant s) (h : Unreported (t.take s)) (ht : ¬ t.Removes s)
    {r : Resource Int32} (hr : r ∈ s.1.entries) (hid : r.id = allLights) :
    r ∈ (t.take s).1.entries := by
  rcases fate_take hs h with hsame | ⟨hremoved, -⟩ | ⟨e, -, -, heq⟩
  · exact (hsame.entries r hid).mpr hr
  · exact absurd hremoved ht
  · rw [heq]
    exact Collection.mem_insertEntry.mpr (.inr hr)

/-! ## Runs -/

theorem UnreportedThroughout.head {turns : List Turn} (h : UnreportedThroughout s turns) :
    Unreported s := by
  cases turns with
  | nil => exact h
  | cons t rest => exact h.1

theorem Invariant.takeAll (hs : Invariant s) {turns : List Turn}
    (h : UnreportedThroughout s turns) : Invariant (takeAll s turns) := by
  induction turns generalizing s with
  | nil => exact hs
  | cons t rest ih =>
    exact ih (hs.take h.2.head) h.2

theorem Invariant.ofCache {channel : Channel} {path : String} {cache : Cache} {w : World}
    (hcache : cache.rootNode < w.fresh) : Invariant (.ofCache channel path cache, w) :=
  ⟨.ofCache channel path cache, fun _ h => absurd h List.not_mem_nil, hcache⟩

theorem mem_takeAll (hs : Invariant s) {turns : List Turn} (h : UnreportedThroughout s turns)
    (hkept : KeptThroughout s turns) {r : Resource Int32} (hr : r ∈ s.1.entries)
    (hid : r.id = allLights) : r ∈ (Groups.takeAll s turns).1.entries := by
  induction turns generalizing s with
  | nil => exact hr
  | cons t rest ih =>
    have hnow := h.2.head
    exact ih (hs.take hnow) h.2 hkept.2 (mem_take hs hnow hkept.1 hr hid)

/-- How group 0 is served in a state. -/
structure Serves (l : Collection Int32) (w : World) : Prop where
  /-- It exists, and nothing is sent to tell. -/
  exists? : exists? l allLights w = .ok true w
  existsCached? : existsCached? l allLights w = .ok true w
  /-- Asking for it sends requests for its own path only. -/
  sent : ∃ times : List Instant, (after (get allLights) (l, w)).2.sent =
    w.sent ++ times.map (⟨·, l.channel.compose .get (l.entryPath allLights) (.object [])⟩)
  /-- What the root of the collection holds stays as it is. -/
  unread : (after (get allLights) (l, w)).2.snapshots.get? l.cache.rootNode =
    w.snapshots.get? l.cache.rootNode
  /-- What is found has its own root, and is an entry that is pinned. -/
  found : ∀ r l' w', get allLights (l, w) = .ok r (l', w') →
    r.id = allLights ∧ OwnRoot l r ∧ r ∈ l'.entries ∧ l'.isPinned allLights = true
  /-- When it cannot be had, it is neither made nor pinned. -/
  missed : ∀ e l' w', get allLights (l, w) = .error e (l', w') → l' = l
  pinned : l.isPinned allLights = l.isMaterialized allLights

theorem Invariant.serves {l : Collection Int32} {w : World} (hs : Invariant (l, w)) : Serves l w := by
  have hpinned : l.isPinned allLights = l.isMaterialized allLights := by
    rw [Bool.eq_iff_iff, Collection.isPinned_iff, Collection.isMaterialized_iff]
    refine ⟨hs.regular.pinned allLights, ?_⟩
    rintro ⟨r, hr, hid⟩
    exact (hs.served r hr hid).1
  have hworld := world_get hs.served hs.made
  refine ⟨rfl, rfl, ?_, ?_, fun r l' w' h => ?_, fun e l' w' h => eq_of_get_error h, hpinned⟩
  · rcases hworld with hsame | ⟨node, u, -, hsent, -, hafter⟩
    · rw [hsame]
      exact ⟨[], (List.append_nil _).symm⟩
    · rw [hafter, ← hsent]
      exact Cache.sent_value_root
  · rcases hworld with hsame | ⟨node, u, hnode, -, hsnapshots, hafter⟩
    · rw [hsame]
    · rw [hafter, Cache.snapshots_value_root (Ne.symm hnode), hsnapshots]
  · obtain ⟨hid, hroot, ⟨rfl, hr⟩ | ⟨-, rfl⟩⟩ := get_of_ok hs.served hs.made h
    · exact ⟨hid, hroot, hr, Collection.isPinned_iff.mpr (hs.served r hr hid).1⟩
    · exact ⟨hid, hroot, Collection.mem_insertEntry.mpr (.inl rfl),
        Collection.isPinned_iff.mpr List.mem_cons_self⟩

theorem mem_of_getAll (hs : Invariant s) {r : Resource Int32} (hr : r ∈ s.1.entries)
    (hid : r.id = allLights) {found : List (Resource Int32)} {s' : Collection Int32 × World}
    (h : Collection.getAll s = .ok found s') : r ∈ found := by
  obtain ⟨fields, u, made, -, -, hfound, -, -⟩ := Collection.exists_fields_of_getAll h
  rw [hfound]
  refine Collection.mem_foldl_add.mpr (.inr (Collection.mem_retain.mpr ⟨hr, .inl ?_⟩))
  rw [hid]
  exact (hs.served r hr hid).1

/-- **Group 0.** Whatever is asked of a collection of groups and of the plain collection beneath it,
and whatever happens beside, as long as no group 0 is reported: group 0 exists, which nothing is sent
to tell; asking for it requests its own path only, and what is found reads from a root of its own at
that path; when it cannot be had, the collection stays as it is. Once there is an entry, every
listing has it until the bridge confirms that group 0 was removed. -/
theorem all_lights_served_from_own_root (channel : Channel) (path : String) (cache : Cache)
    (w : World) (hcache : cache.rootNode < w.fresh) (turns : List Turn)
    (hturns : UnreportedThroughout (.ofCache channel path cache, w) turns) :
    let s := takeAll (.ofCache channel path cache, w) turns
    Serves s.1 s.2 ∧
    ∀ later, UnreportedThroughout s later → KeptThroughout s later →
      ∀ r ∈ s.1.entries, r.id = allLights →
      ∀ found s', Collection.getAll (takeAll s later) = .ok found s' → r ∈ found := by
  intro s
  have hs : Invariant s := (Invariant.ofCache hcache).takeAll hturns
  refine ⟨hs.serves, fun later hlater hkept r hr hid found s' hfound => ?_⟩
  exact mem_of_getAll (hs.takeAll hlater) (mem_takeAll hs hlater hkept hr hid) hid hfound

/-- Group 0 is asked for first; then the groups are listed, of which only group 1 is reported, and
group 0 is read as if it were any group. It stays in the listings. -/
theorem all_lights_listed_beside_reported :
    let channel : Channel := ⟨"192.168.2.116", 80, "user", .millis 0, 1, 0⟩
    let cache := Cache.root 2 "/groups" channel .never
    let script := Script.ofLines 0 [.always .get "/api/user/groups/0" "\x7b\x7d",
      .always .get "/api/user/groups" "\x7b\"1\":\x7b\x7d\x7d"]
    let w : World := { World.start with
      transports := Table.empty.set 0 script, slots := Table.empty.set 1 0, held := [2], fresh := 3 }
    let turns := [Turn.ask false (.get allLights)]
    let later := [Turn.ask false .getAll, Turn.ask true (.get allLights)]
    let s := takeAll (.ofCache channel "/groups" cache, w) turns
    cache.rootNode < w.fresh ∧ UnreportedThroughout (.ofCache channel "/groups" cache, w) turns ∧
      UnreportedThroughout s later ∧ KeptThroughout s later ∧ Serves s.1 s.2 ∧
      ∃ r ∈ s.1.entries, r.id = allLights ∧
        ∃ found s', Collection.getAll (takeAll s later) = .ok found s' ∧
          found.map (·.id) = [0, 1] ∧ r ∈ found := by
  intro channel cache script w turns later s
  have hcache : cache.rootNode < w.fresh := by decide
  have hturns : UnreportedThroughout (.ofCache channel "/groups" cache, w) turns := by
    decide +kernel
  have hlater : UnreportedThroughout s later := by decide +kernel
  have hentry : (Collection.entry? s.1 allLights).isSome = true := by decide +kernel
  have hfound : (outcome Collection.getAll (takeAll s later)).toOption.map (·.map (·.id)) =
      some [0, 1] := by decide +kernel
  -- What the world is does not matter any more, and unfolding it would run the turns.
  clear_value w
  obtain ⟨hserves, hstays⟩ :=
    all_lights_served_from_own_root channel "/groups" cache w hcache turns hturns
  have hkept : KeptThroughout s later := ⟨id, id, trivial⟩
  obtain ⟨r, hr⟩ := Option.isSome_iff_exists.mp hentry
  obtain ⟨hmem, hid⟩ := Collection.mem_of_entry? hr
  obtain ⟨found, hlist, hids⟩ := Option.map_eq_some_iff.mp hfound
  have hrun := eq_ok_of_outcome (eq_ok_of_toOption hlist)
  exact ⟨hcache, hturns, hlater, hkept, hserves, r, hmem, hid, found, _, hrun, hids,
    hstays later hlater hkept r hmem hid found _ hrun⟩

end Groups

end LightBridge
