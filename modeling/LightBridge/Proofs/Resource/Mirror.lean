import LightBridge.Proofs.Cache.Freshness
import LightBridge.Proofs.Fields
import LightBridge.Proofs.Resource.Regular

/-!
# Listing a collection

A listing asks for the state of the collection first. If that cannot be had, or is no object, nothing
is listed and no entry is touched. Otherwise entries that are no longer reported are dropped, by the
key of their id, and entries are made for the reported keys that denote an id without one. The two
agree on what is reported as long as each key that denotes an id is its canonical key.
-/

namespace LightBridge.Collection

variable {ι : Type} [DecidableEq ι] [ResourceId ι]
variable {l : Collection ι} {fields : Fields} {id : ι} {w u : World}

/-! ## What is reported -/

/-- A key denotes an id. -/
def Reports (fields : Fields) (id : ι) : Prop :=
  ∃ key ∈ Fields.keys fields, ResourceId.ofKey? key = some id

omit [DecidableEq ι] in
theorem reports_cons {key : String} {slice : Json} :
    Reports ((key, slice) :: fields) id ↔ ResourceId.ofKey? key = some id ∨ Reports fields id := by
  simp [Reports, Fields.keys]

/-- No key is empty, and a key that denotes an id is its canonical one. -/
def Canonical (ι : Type) [ResourceId ι] (fields : Fields) : Prop :=
  ∀ key ∈ Fields.keys fields,
    key ≠ "" ∧ ∀ id : ι, ResourceId.ofKey? key = some id → ResourceId.key id = key

omit [DecidableEq ι] in
theorem Canonical.has_key_iff [LawfulResourceId ι] (h : Canonical ι fields) :
    Fields.has fields (ResourceId.key id) = true ↔ Reports fields id := by
  rw [Fields.has_eq_true_iff]
  constructor
  · intro hkey
    exact ⟨_, hkey, LawfulResourceId.ofKey?_key (h _ hkey).1⟩
  · rintro ⟨key, hkey, hid⟩
    rwa [(h key hkey).2 id hid]

/-! ## What is made -/

/-- The resources that are made for reported ids without an entry, one for each. -/
structure Makes (l : Collection ι) (fields : Fields) (made : List (Resource ι)) : Prop where
  ids : ∀ id, (∃ r ∈ made, r.id = id) ↔ l.isMaterialized id = false ∧ Reports fields id
  once : (made.map (·.id)).Nodup
  reads : ∀ r ∈ made, ∃ key node, ResourceId.ofKey? key = some r.id ∧
    Fields.value? fields key = some r.slice ∧ r.cache = .child l.cache node key

namespace Makes

variable {made : List (Resource ι)} {key : String} {slice : Json} {rest : Fields}

/-- A key that denotes no id, or one with an entry, makes nothing. -/
theorem skip (h : Makes l rest made)
    (hskip : ∀ id, ResourceId.ofKey? key = some id → l.isMaterialized id = true) :
    Makes l ((key, slice) :: rest) made := by
  refine ⟨fun id => ?_, h.once, fun r hr => ?_⟩
  · rw [h.ids, reports_cons]
    refine and_congr_right fun hnew => ⟨.inr, fun hid => hid.resolve_left fun hkey => ?_⟩
    rw [hskip id hkey] at hnew
    cases hnew
  · obtain ⟨key', node, hid, hslice, hcache⟩ := h.reads r hr
    have hnew := ((h.ids r.id).mp ⟨r, hr, rfl⟩).1
    have hne : key ≠ key' := by
      rintro rfl
      rw [hskip _ hid] at hnew
      cases hnew
    exact ⟨key', node, hid, by rw [Fields.value?_cons, if_neg hne, hslice], hcache⟩

/-- A key that denotes an id without an entry makes one, before the keys after it. -/
theorem cons {node : NodeId} (hid : ResourceId.ofKey? key = some id)
    (hnew : l.isMaterialized id = false)
    (h : Makes (l.add ⟨id, slice, .child l.cache node key⟩) rest made) :
    Makes l ((key, slice) :: rest) (⟨id, slice, .child l.cache node key⟩ :: made) := by
  -- what is made later has another id
  have hother : ∀ r ∈ made, r.id ≠ id ∧ l.isMaterialized r.id = false := by
    intro r hr
    have hr := ((h.ids r.id).mp ⟨r, hr, rfl⟩).1
    rw [← Bool.not_eq_true, isMaterialized_add, not_or, Bool.not_eq_true] at hr
    exact ⟨fun heq => hr.1 heq.symm, hr.2⟩
  refine ⟨fun id' => ?_, ?_, fun r hr => ?_⟩
  · simp only [List.mem_cons, exists_eq_or_imp, h.ids, reports_cons, hid, Option.some.injEq]
    rw [← Bool.not_eq_true, isMaterialized_add, not_or, Bool.not_eq_true]
    constructor
    · rintro (rfl | ⟨⟨hne, hfree⟩, hreports⟩)
      · exact ⟨hnew, .inl rfl⟩
      · exact ⟨hfree, .inr hreports⟩
    · rintro ⟨hfree, rfl | hreports⟩
      · exact .inl rfl
      · by_cases heq : id = id'
        · exact .inl heq
        · exact .inr ⟨⟨heq, hfree⟩, hreports⟩
  · rw [List.map_cons, List.nodup_cons]
    refine ⟨fun hmem => ?_, h.once⟩
    obtain ⟨r, hr, heq⟩ := List.mem_map.mp hmem
    exact (hother r hr).1 heq
  · rcases List.mem_cons.mp hr with rfl | hr
    · exact ⟨key, node, hid, by rw [Fields.value?_cons, if_pos rfl], rfl⟩
    · obtain ⟨key', node', hid', hslice, hcache⟩ := h.reads r hr
      have hne : key ≠ key' := by
        rintro rfl
        exact (hother r hr).1 (Option.some.inj (hid'.symm.trans hid))
      exact ⟨key', node', hid', by rw [Fields.value?_cons, if_neg hne, hslice], hcache⟩

end Makes

/-- Each resource is made once, with a node of its own, and added to the entries; nothing else
happens. -/
theorem exists_made (l : Collection ι) (fields : Fields) (w : World) :
    ∃ made, Makes l fields made ∧
      l.materializeAll fields w = .ok (made.foldl add l) (w.play (List.replicate made.length .newNode)) := by
  induction fields generalizing l w with
  | nil => exact ⟨[], ⟨by simp [Reports, Fields.keys], .nil, by simp⟩, rfl⟩
  | cons field rest ih =>
    obtain ⟨key, slice⟩ := field
    rw [materializeAll]
    cases hid : ResourceId.ofKey? (ι := ι) key with
    | none =>
      obtain ⟨made, hmakes, hrun⟩ := ih l w
      exact ⟨made, hmakes.skip (by simp [hid]), hrun⟩
    | some id =>
      dsimp only
      cases hnew : l.isMaterialized id with
      | true =>
        obtain ⟨made, hmakes, hrun⟩ := ih l w
        refine ⟨made, hmakes.skip ?_, hrun⟩
        rintro _ h
        cases hid.symm.trans h
        exact hnew
      | false =>
        obtain ⟨made, hmakes, hrun⟩ :=
          ih (l.add ⟨id, slice, .child l.cache w.fresh key⟩) (w.step .newNode)
        exact ⟨_, hmakes.cons hid hnew, hrun⟩

/-! ## What is listed -/

omit [DecidableEq ι] in
theorem foldl_add (l : Collection ι) (made : List (Resource ι)) :
    made.foldl add l = { l with entries := (made.foldl add l).entries } := by
  induction made generalizing l with
  | nil => rfl
  | cons r rest ih => exact ih (l.add r)

omit [DecidableEq ι] in
theorem mem_foldl_add {made : List (Resource ι)} {r : Resource ι} :
    r ∈ (made.foldl add l).entries ↔ r ∈ made ∨ r ∈ l.entries := by
  induction made generalizing l with
  | nil => simp
  | cons e rest ih =>
    rw [List.foldl_cons, ih, add, mem_insertEntry, List.mem_cons, or_left_comm, or_assoc]

theorem mem_retain {r : Resource ι} :
    r ∈ (l.retain fields).entries ↔
      r ∈ l.entries ∧ (r.id ∈ l.pinned ∨ Fields.has fields (ResourceId.key r.id) = true) := by
  rw [retain, List.mem_filter, Bool.or_eq_true, isPinned_iff]

/-- The same reported ids have no entry before and after the others are dropped. -/
theorem isMaterialized_retain [LawfulResourceId ι] (hfields : Canonical ι fields)
    (hid : Reports fields id) : (l.retain fields).isMaterialized id = l.isMaterialized id := by
  rw [Bool.eq_iff_iff, isMaterialized_iff, isMaterialized_iff]
  constructor
  · rintro ⟨r, hr, heq⟩
    exact ⟨r, (mem_retain.mp hr).1, heq⟩
  · rintro ⟨r, hr, rfl⟩
    exact ⟨r, mem_retain.mpr ⟨hr, .inr (hfields.has_key_iff.mpr hid)⟩, rfl⟩

theorem getAll_of_error {e : Fault} (h : l.reported w = .error e u) :
    getAll (l, w) = .error e (l, u) := by
  unfold getAll
  simp only [bind, EStateM.bind, ActOn.current, lift_eq_of_error h]

theorem getAll_of_ok {l' : Collection ι} {w' : World} (h : l.reported w = .ok fields u)
    (hrun : (l.retain fields).materializeAll fields u = .ok l' w') :
    getAll (l, w) = .ok l'.entries (l', w') := by
  unfold getAll
  simp only [bind, EStateM.bind, ActOn.current, lift_eq_of_ok h, lift_eq_of_ok hrun]
  rfl

/-- The resources that are made between the worlds `u` and `w` when `fields` is reported: one for each
reported id that had no entry, from the field of its key, with a node of its own and a cache that
reads what that field holds. -/
structure Created (l : Collection ι) (fields : Fields) (u w : World) (made : List (Resource ι)) :
    Prop where
  ids : ∀ id, (∃ r ∈ made, r.id = id) ↔ l.isMaterialized id = false ∧ Reports fields id
  once : (made.map (·.id)).Nodup
  nodes : w = u.play (List.replicate made.length .newNode)
  slice : ∀ r ∈ made, Fields.value? fields (ResourceId.key r.id) = some r.slice
  cache : ∀ r ∈ made, ∃ node, r.cache = .child l.cache node (ResourceId.key r.id)
  peek : ∀ r ∈ made, outcome r.cache.peek w = .ok r.slice

/-- What is found between the worlds `u` and `w` when `fields` is reported: the pinned and the
reported ids, in order, with the entries that they had or else with new ones. -/
structure Listed (l : Collection ι) (fields : Fields) (u w : World) (found : List (Resource ι)) :
    Prop where
  ordered : Ordered found
  ids : ∀ id, (∃ r ∈ found, r.id = id) ↔ id ∈ l.pinned ∨ Reports fields id
  kept : ∀ r ∈ l.entries, r.id ∈ l.pinned ∨ Reports fields r.id → r ∈ found
  made : ∃ made, l.Created fields u w made ∧ ∀ r, r ∈ found → r ∈ made ∨ r ∈ l.entries

/-- A listing mirrors what is reported, or leaves the collection as it is. -/
def Mirrors (l : Collection ι) (w : World) : Prop :=
  match getAll (l, w) with
  | .ok found (l', w') => l' = { l with entries := found } ∧
      ∃ fields u, l.cache.value w = .ok (.object fields) u ∧
        (Canonical ι fields → l.Listed fields u w' found)
  | .error e (l', u) => l' = l ∧ (l.cache.value w = .error e u ∨
      ∃ v, l.cache.value w = .ok v u ∧ (∀ fields, v ≠ .object fields) ∧
        e = .malformed (.noObject l.cache.path))

variable [LawfulResourceId ι]

/-- A new cache below one that can be read reads a field of that. -/
theorem peek_made {c : Cache} {node : NodeId} {key : String} {slice : Json} {n : Nat}
    (hview : c.view u = .ok (.object fields)) (hheld : u.holds c.node = true)
    (hslice : Fields.value? fields key = some slice) :
    outcome (Cache.child c node key).peek (u.play (List.replicate n .newNode)) = .ok slice := by
  obtain ⟨hlive, s, hroot, hat⟩ := Cache.view_eq_ok_iff.mp hview
  rw [Cache.outcome_peek, Cache.view_eq_ok_iff]
  refine ⟨fun above habove => World.holds_play_newNode ?_ n, s, ?_, ?_⟩
  · rcases List.mem_cons.mp habove with rfl | habove
    · exact hheld
    · exact hlive above habove
  · rw [World.snapshots_play_newNode]
    exact hroot
  · rw [Cache.keys, Json.at?_append, hat]
    simpa [Json.at?_cons] using hslice

theorem created_of_makes {made : List (Resource ι)} (hmakes : Makes (l.retain fields) fields made)
    (hfields : Canonical ι fields) (hview : l.cache.view u = .ok (.object fields))
    (hheld : u.holds l.cache.node = true) :
    l.Created fields u (u.play (List.replicate made.length .newNode)) made := by
  -- the key of a cache is the canonical one
  have hreads : ∀ r ∈ made, Fields.value? fields (ResourceId.key r.id) = some r.slice ∧
      ∃ node, r.cache = .child l.cache node (ResourceId.key r.id) := by
    intro r hr
    obtain ⟨key, node, hid, hslice, hcache⟩ := hmakes.reads r hr
    have hmem : key ∈ Fields.keys fields := by
      rw [← Fields.has_eq_true_iff, Fields.has, hslice]
      rfl
    rw [(hfields key hmem).2 r.id hid]
    exact ⟨hslice, node, hcache⟩
  refine ⟨fun id => ?_, hmakes.once, rfl, fun r hr => (hreads r hr).1, fun r hr => (hreads r hr).2,
    fun r hr => ?_⟩
  · rw [hmakes.ids]
    refine and_congr_left fun hid => ?_
    rw [isMaterialized_retain hfields hid]
  · obtain ⟨hslice, node, hcache⟩ := hreads r hr
    rw [hcache]
    exact peek_made hview hheld hslice

theorem listed_of_created {w : World} {made : List (Resource ι)} (h : l.Regular)
    (hcreated : l.Created fields u w made) (hfields : Canonical ι fields)
    (hordered : Ordered (made.foldl add (l.retain fields)).entries) :
    l.Listed fields u w (made.foldl add (l.retain fields)).entries := by
  have hkept : ∀ r ∈ l.entries, r.id ∈ l.pinned ∨ Reports fields r.id →
      r ∈ (made.foldl add (l.retain fields)).entries := by
    intro r hr hkept
    have hretained := mem_retain.mpr ⟨hr, hkept.imp_right hfields.has_key_iff.mpr⟩
    exact mem_foldl_add.mpr (.inr hretained)
  refine ⟨hordered, fun id => ⟨?_, ?_⟩, hkept, made, hcreated, fun r hr => ?_⟩
  · rintro ⟨r, hr, rfl⟩
    rcases mem_foldl_add.mp hr with hr | hr
    · exact .inr ((hcreated.ids r.id).mp ⟨r, hr, rfl⟩).2
    · exact (mem_retain.mp hr).2.imp_right hfields.has_key_iff.mp
  · intro hid
    cases hnew : l.isMaterialized id with
    | true =>
      obtain ⟨r, hr, rfl⟩ := isMaterialized_iff.mp hnew
      exact ⟨r, hkept r hr hid, rfl⟩
    | false =>
      -- a pinned id has an entry, so this one is reported
      have hreports : Reports fields id := by
        refine hid.resolve_left fun hpinned => ?_
        rw [isMaterialized_iff.mpr (h.pinned id hpinned)] at hnew
        cases hnew
      obtain ⟨r, hr, heq⟩ := (hcreated.ids id).mpr ⟨hnew, hreports⟩
      exact ⟨r, mem_foldl_add.mpr (.inl hr), heq⟩
  · exact (mem_foldl_add.mp hr).imp_right fun hr => (mem_retain.mp hr).1

theorem mirrors_of_regular (h : l.Regular) (hheld : w.holds l.cache.node = true) : l.Mirrors w := by
  unfold Mirrors
  cases hvalue : l.cache.value w with
  | error e u =>
    have hreported : l.reported w = .error e u := by
      simp only [reported, bind, EStateM.bind, hvalue]
    rw [getAll_of_error hreported]
    exact ⟨rfl, .inl rfl⟩
  | ok v u =>
    by_cases hobject : ∃ fields, v = .object fields
    · obtain ⟨fields, rfl⟩ := hobject
      have hreported : l.reported w = .ok fields u := by
        simp only [reported, bind, EStateM.bind, hvalue]
        rfl
      obtain ⟨made, hmakes, hrun⟩ := exists_made (l.retain fields) fields u
      obtain ⟨hview, hsame⟩ := Cache.view_of_value hvalue
      rw [getAll_of_ok hreported hrun]
      refine ⟨foldl_add .., fields, u, rfl, fun hfields => ?_⟩
      have hheld' : u.holds l.cache.node = true := by
        rw [World.holds, hsame]
        exact hheld
      have hregular := regular_materializeAll (h.retain fields) hrun
      exact listed_of_created h (created_of_makes hmakes hfields hview hheld') hfields
        hregular.ordered
    · have hreported : l.reported w = .error (.malformed (.noObject l.cache.path)) u := by
        simp only [reported, bind, EStateM.bind, hvalue]
        cases v with
        | object fields => exact absurd ⟨fields, rfl⟩ hobject
        | _ => rfl
      rw [getAll_of_error hreported]
      exact ⟨rfl, .inr ⟨v, rfl, fun fields hv => hobject ⟨fields, hv⟩, rfl⟩⟩

end LightBridge.Collection
