import LightBridge.Proofs.Keep
import LightBridge.Proofs.Resource.Play

/-!
# Regular collections

The entries of a collection stand in the order of their ids, one for an id, and a pinned id always
has one. A collection starts without either, and every operation keeps this, also when it fails:
whatever is added had no entry, and what is dropped is not pinned, or loses its pin as well.
-/

namespace LightBridge

/-! ## Ids -/

/-- Ids that are told from their keys, and that stand in an order without ties. -/
class LawfulResourceId (ι : Type) [ResourceId ι] : Prop where
  ofKey?_key {id : ι} : ResourceId.key id ≠ "" → ResourceId.ofKey? (ResourceId.key id) = some id
  before_trans {a b c : ι} :
    ResourceId.before a b = true → ResourceId.before b c = true → ResourceId.before a c = true
  before_or_before {a b : ι} :
    a ≠ b → ResourceId.before a b = true ∨ ResourceId.before b a = true

instance : LawfulResourceId Int32 where
  ofKey?_key _ := readInt32?_int32Text _
  before_trans h h' :=
    decide_eq_true (Int32.lt_trans (of_decide_eq_true h) (of_decide_eq_true h'))
  before_or_before h := (Int32.lt_or_lt_of_ne h).imp decide_eq_true decide_eq_true

instance : LawfulResourceId String where
  ofKey?_key {id} h := by
    have hempty : ¬ id.isEmpty = true := fun hid => h (String.isEmpty_iff.mp hid)
    show (if id.isEmpty then none else some id) = some id
    exact if_neg hempty
  before_trans h h' :=
    decide_eq_true (String.lt_trans (of_decide_eq_true h) (of_decide_eq_true h'))
  before_or_before {a b} h := by
    by_cases hab : a < b
    · exact .inl (decide_eq_true hab)
    · refine .inr (decide_eq_true (Decidable.byContradiction fun hba => h ?_))
      exact String.le_antisymm (String.not_lt.mp hba) (String.not_lt.mp hab)

namespace Collection

variable {ι : Type}

/-! ## Entries in order -/

section Order

variable [ResourceId ι] {r : Resource ι} {entries : List (Resource ι)}

/-- The ids of the entries strictly increase. -/
def Ordered (entries : List (Resource ι)) : Prop :=
  entries.Pairwise fun a b => ResourceId.before a.id b.id = true

theorem Ordered.insertEntry [LawfulResourceId ι] (h : Ordered entries)
    (hnew : ∀ e ∈ entries, e.id ≠ r.id) : Ordered (insertEntry r entries) := by
  induction entries with
  | nil => exact List.pairwise_singleton ..
  | cons e rest ih =>
    obtain ⟨hbelow, hrest⟩ := List.pairwise_cons.mp h
    rw [Collection.insertEntry]
    by_cases hbefore : ResourceId.before r.id e.id = true
    · rw [if_pos hbefore]
      refine List.pairwise_cons.mpr ⟨fun f hf => ?_, h⟩
      rcases List.mem_cons.mp hf with rfl | hf
      · exact hbefore
      · exact LawfulResourceId.before_trans hbefore (hbelow f hf)
    · rw [if_neg hbefore]
      refine List.pairwise_cons.mpr ⟨fun f hf => ?_, ?_⟩
      · rcases mem_insertEntry.mp hf with rfl | hf
        · -- the new id is another one, so it comes after what it does not come before
          exact (LawfulResourceId.before_or_before (hnew e List.mem_cons_self)).resolve_right hbefore
        · exact hbelow f hf
      · exact ih hrest fun f hf => hnew f (List.mem_cons_of_mem e hf)

end Order

/-! ## What is regular -/

/-- The entries are in order, and the pinned ids have one. -/
structure Regular [ResourceId ι] (l : Collection ι) : Prop where
  ordered : Ordered l.entries
  pinned : ∀ id ∈ l.pinned, ∃ r ∈ l.entries, r.id = id

namespace Regular

variable [ResourceId ι] {l : Collection ι}

theorem ofCache (channel : Channel) (path : String) (cache : Cache) :
    (Collection.ofCache channel path cache : Collection ι).Regular :=
  ⟨.nil, fun _ h => absurd h List.not_mem_nil⟩

/-- Entries may be left out unless they are pinned. -/
theorem filter (h : l.Regular) {p : Resource ι → Bool} {pinned : List ι}
    (hpinned : ∀ id ∈ pinned, id ∈ l.pinned ∧ ∀ r ∈ l.entries, r.id = id → p r = true) :
    ({ l with entries := l.entries.filter p, pinned } : Collection ι).Regular := by
  refine ⟨h.ordered.filter p, fun id hid => ?_⟩
  obtain ⟨r, hr, heq⟩ := h.pinned id (hpinned id hid).1
  exact ⟨r, List.mem_filter.mpr ⟨hr, (hpinned id hid).2 r hr heq⟩, heq⟩

end Regular

variable [DecidableEq ι] {l : Collection ι} {id : ι}

theorem isMaterialized_iff : l.isMaterialized id = true ↔ ∃ r ∈ l.entries, r.id = id := by
  simp [isMaterialized, entry?]

theorem isMaterialized_eq_false_iff :
    l.isMaterialized id = false ↔ ∀ r ∈ l.entries, r.id ≠ id := by
  simp [isMaterialized, entry?]

theorem isPinned_iff : l.isPinned id = true ↔ id ∈ l.pinned := by
  simp [isPinned]

theorem isMaterialized_of_entry?_eq_none (h : l.entry? id = none) : l.isMaterialized id = false := by
  rw [isMaterialized, h]
  rfl

theorem isMaterialized_add [ResourceId ι] {r : Resource ι} :
    (l.add r).isMaterialized id = true ↔ r.id = id ∨ l.isMaterialized id = true := by
  simp only [isMaterialized_iff, add, mem_insertEntry]
  constructor
  · rintro ⟨e, rfl | he, heq⟩
    · exact .inl heq
    · exact .inr ⟨e, he, heq⟩
  · rintro (heq | ⟨e, he, heq⟩)
    · exact ⟨r, .inl rfl, heq⟩
    · exact ⟨e, .inr he, heq⟩

namespace Regular

variable [ResourceId ι]

theorem add [LawfulResourceId ι] (h : l.Regular) {r : Resource ι}
    (hnew : l.isMaterialized r.id = false) : (l.add r).Regular := by
  refine ⟨h.ordered.insertEntry (isMaterialized_eq_false_iff.mp hnew), fun id hid => ?_⟩
  obtain ⟨e, he, rfl⟩ := h.pinned id hid
  exact ⟨e, mem_insertEntry.mpr (.inr he), rfl⟩

/-- What has an entry may be pinned. -/
theorem pin (h : l.Regular) (hid : l.isMaterialized id = true) :
    ({ l with pinned := id :: l.pinned } : Collection ι).Regular := by
  refine ⟨h.ordered, fun id' hid' => ?_⟩
  rcases List.mem_cons.mp hid' with rfl | hid'
  · exact isMaterialized_iff.mp hid
  · exact h.pinned id' hid'

theorem drop (h : l.Regular) (hid : l.isPinned id = false) : (l.drop id).Regular := by
  refine h.filter fun id' hid' => ⟨hid', fun r _ heq => ?_⟩
  -- what is pinned is not what is dropped
  refine decide_eq_true fun hr => ?_
  rw [← isPinned_iff, ← heq, hr, hid] at hid'
  cases hid'

theorem retain (h : l.Regular) (fields : Fields) : (l.retain fields).Regular := by
  refine h.filter fun id hid => ⟨hid, fun r _ heq => ?_⟩
  rw [isPinned_iff.mpr (heq ▸ hid), Bool.true_or]

/-- A resource that is forgotten loses its entry and its pin. -/
theorem forget (h : l.Regular) (id : ι) :
    ({ l.drop id with pinned := l.pinned.filter fun p => p ≠ id } : Collection ι).Regular := by
  refine h.filter fun id' hid' => ?_
  obtain ⟨hpinned, hne⟩ := List.mem_filter.mp hid'
  refine ⟨hpinned, fun r _ heq => ?_⟩
  rw [heq]
  exact hne

end Regular

/-! ## Operations -/

section Operations

variable [ResourceId ι]

theorem keeps_reread (r : Resource ι) :
    Keeps Regular (fun _ => True) (reread r : ActOn (Collection ι) (Resource ι)) := by
  rintro ⟨l, w⟩ hl
  refine ⟨?_, fun _ _ _ => trivial⟩
  rcases after_reread r l w with h | ⟨hpinned, h⟩
  · rw [h]
    exact hl
  · rw [h]
    exact hl.drop hpinned

omit [DecidableEq ι] in
theorem keeps_reading {α : Type} (f : Collection ι → Act α) :
    Keeps Regular (fun _ => True) (reading f) :=
  Keeps.current.bind fun l _ => .act (f l)

theorem keeps_remove (id : ι) :
    Keeps Regular (fun _ => True) (remove id : ActOn (Collection ι) Bool) := by
  refine Keeps.current.bind fun l hl => ?_
  refine (Keeps.act _).bind fun reply _ => ?_
  split
  · refine (Keeps.become (hl.forget id)).bind fun _ _ => ?_
    exact (Keeps.act _).told
  · exact .pure _ trivial

variable [LawfulResourceId ι]

theorem regular_materializeAll {fields : Fields} {w w' : World} {made : Collection ι}
    (h : l.Regular) (hmade : l.materializeAll fields w = .ok made w') : made.Regular := by
  induction fields generalizing l w with
  | nil =>
    cases hmade
    exact h
  | cons field rest ih =>
    obtain ⟨key, slice⟩ := field
    rw [materializeAll] at hmade
    cases hid : ResourceId.ofKey? (ι := ι) key with
    | none =>
      rw [hid] at hmade
      exact ih h hmade
    | some id =>
      rw [hid] at hmade
      dsimp only at hmade
      split at hmade
      · exact ih h hmade
      · next hnew =>
        -- the world gives the entry a node and has no say in its place
        exact ih (h.add (r := ⟨id, slice, .child l.cache w.fresh key⟩) (by simpa using hnew)) hmade

theorem keeps_getAll : Keeps Regular (fun _ => True) (getAll : ActOn (Collection ι) _) := by
  refine Keeps.current.bind fun l hl => ?_
  refine (Keeps.act _).bind fun fields _ => ?_
  refine (Keeps.lift (Q := Regular) fun _ _ _ h => ?_).bind fun l' hl' => ?_
  · exact regular_materializeAll (hl.retain fields) h
  · exact (Keeps.become hl').told

theorem keeps_get (id : ι) :
    Keeps Regular (fun _ => True) (get id : ActOn (Collection ι) (Resource ι)) := by
  refine Keeps.current.bind fun l hl => ?_
  cases hentry : l.entry? id with
  | some r => exact keeps_reread r
  | none =>
    refine (Keeps.act _).bind fun state _ => ?_
    cases state.get? (ResourceId.key id) with
    | none => exact .throw _
    | some slice =>
      have hnew := isMaterialized_of_entry?_eq_none hentry
      refine (Keeps.lift (Q := fun made => made.1.Regular) fun w made w' h => ?_).bind
        fun made hmade => ?_
      · cases h
        exact hl.add hnew
      · exact (Keeps.become hmade).told

theorem keeps_perform (operation : Operation ι) :
    Keeps Regular (fun _ => True) (perform operation) := by
  cases operation with
  | getAll => exact keeps_getAll.map fun _ _ => trivial
  | get id => exact (keeps_get id).map fun _ _ => trivial
  | remove id => exact (keeps_remove id).map fun _ _ => trivial
  | has | hasCached | create => exact (keeps_reading _).map fun _ _ => trivial
  | isMaterialized | refresh | path | username | describe => exact keeps_reading _

end Operations

end Collection

namespace Groups

open Collection (Regular)

theorem regular_materializeAllLights {l : Collection Int32} {w w' : World}
    {made : Collection Int32 × Resource Int32} (h : l.Regular)
    (hnew : l.isMaterialized allLights = false)
    (hmade : materializeAllLights l w = .ok made w') : made.1.Regular := by
  obtain ⟨interval, u, -, hrest⟩ := exists_of_bind_ok hmade
  obtain ⟨cache, u', -, hrest⟩ := exists_of_bind_ok hrest
  obtain ⟨slice, u'', -, hlast⟩ := exists_of_bind_ok hrest
  cases hlast
  -- the entry is added first, and pinned then
  exact (h.add (r := ⟨allLights, slice, cache⟩) hnew).pin (Collection.isMaterialized_add.mpr (.inl rfl))

theorem keeps_get (id : Int32) : Keeps Regular (fun _ => True) (get id) := by
  unfold get
  split
  · refine Keeps.current.bind fun l hl => ?_
    cases hentry : l.entry? id with
    | some r =>
      exact (Keeps.act _).told
    | none =>
      have hid : id = allLights := ‹_›
      subst hid
      have hnew := Collection.isMaterialized_of_entry?_eq_none hentry
      refine (Keeps.lift (Q := fun made => made.1.Regular) fun w made w' h => ?_).bind
        fun made hmade => ?_
      · exact regular_materializeAllLights hl hnew h
      · exact (Keeps.become hmade).told
  · exact Collection.keeps_get id

theorem keeps_perform (operation : Collection.Operation Int32) :
    Keeps Regular (fun _ => True) (perform operation) := by
  have hplain := Collection.keeps_perform operation
  cases operation with
  | get id => exact (keeps_get id).map fun _ _ => trivial
  | has | hasCached => exact (Collection.keeps_reading _).map fun _ _ => trivial
  | _ => exact hplain

end Groups

theorem Sensors.keeps_getAllOfKind (kind : String) :
    Keeps Collection.Regular (fun _ => True) (getAllOfKind kind) := by
  refine Keeps.current.bind fun l _ => (Keeps.act _).bind fun fields _ => ?_
  exact Collection.keeps_getAll.told

end LightBridge
