import LightBridge.Proofs.Resource.Entries

/-!
# Reading one entry

A read goes through the cache of the entry when there is one, and through the cache of the collection
otherwise. Whichever way it goes and wherever it fails, the entries tell afterwards what it found: the
entry is there when it could be read, it is dropped when the bridge no longer reports it, and nothing
else becomes of the entries.
-/

namespace LightBridge

namespace Collection

variable {ι : Type} [DecidableEq ι] [ResourceId ι]
variable {l l' : Collection ι} {r : Resource ι} {w w' : World} {id : ι}

/-! ## Entries of other ids -/

omit [DecidableEq ι] in
theorem filter_insertEntry {p : Resource ι → Bool} (h : p r = false) (entries : List (Resource ι)) :
    (insertEntry r entries).filter p = entries.filter p := by
  induction entries with
  | nil => simp [insertEntry, h]
  | cons e rest ih =>
    rw [insertEntry]
    split
    · rw [List.filter_cons, h, if_neg Bool.false_ne_true]
    · rw [List.filter_cons, List.filter_cons, ih]

omit [ResourceId ι] in
theorem drop_of_not_materialized (h : l.isMaterialized id = false) : l.drop id = l := by
  have hall : l.entries.filter (fun r => r.id ≠ id) = l.entries :=
    List.filter_eq_self.mpr fun r hr => decide_eq_true (isMaterialized_eq_false_iff.mp h r hr)
  rw [drop, hall]

omit [ResourceId ι] in
theorem isMaterialized_drop (l : Collection ι) (id : ι) : (l.drop id).isMaterialized id = false :=
  isMaterialized_eq_false_iff.mpr fun _ hr => of_decide_eq_true (List.mem_filter.mp hr).2

/-! ## How a read ends -/

/-- A read returns the entry that there was, once it could be read, or a new one for what the
collection reads under the key of the id. -/
theorem get_of_ok (h : get id (l, w) = .ok r (l', w')) :
    l.entry? id = some r ∧ l' = l ∧ (∃ v, r.cache.value w = .ok v w') ∨
    l.isMaterialized id = false ∧ l' = l.add r ∧ ∃ fields u,
      l.cache.value w = .ok (.object fields) u ∧
      Fields.value? fields (ResourceId.key id) = some r.slice ∧ r.id = id ∧
      r.cache = .child l.cache u.fresh (ResourceId.key id) ∧ w' = u.step .newNode := by
  have hends := ends_get l w id
  rw [h] at hends
  cases hends with
  | found hentry hvalue => exact .inl ⟨hentry, rfl, _, hvalue⟩
  | made hentry hvalue hslice hr =>
    subst hr
    obtain ⟨fields, rfl, hfield⟩ := Json.exists_fields_of_get? hslice
    have hnew := isMaterialized_of_entry?_eq_none hentry
    exact .inr ⟨hnew, rfl, fields, _, hvalue, hfield, rfl, rfl, rfl⟩

/-- A read that fails drops the entry when it finds nothing in its place, unless the id is pinned. -/
theorem get_of_error {e : Fault} (h : get id (l, w) = .error e (l', w')) :
    (∃ path, e = .notFound path) ∧ id ∉ l.pinned ∧ l' = l.drop id ∨
      ((∀ path, e ≠ .notFound path) ∨ id ∈ l.pinned) ∧ l' = l := by
  -- without an entry there is nothing to drop, so the collection stays as it is in any case
  have stays (hentry : l.entry? id = none) : (∃ path, e = .notFound path) ∧ id ∉ l.pinned ∧
      l = l.drop id ∨ ((∀ path, e ≠ .notFound path) ∨ id ∈ l.pinned) ∧ l = l := by
    have hdrop := drop_of_not_materialized (isMaterialized_of_entry?_eq_none hentry)
    by_cases hnot : (∃ path, e = .notFound path) ∧ id ∉ l.pinned
    · exact .inl ⟨hnot.1, hnot.2, hdrop.symm⟩
    · rw [not_and_or, not_exists, not_not] at hnot
      exact .inr ⟨hnot, rfl⟩
  have hends := ends_get l w id
  rw [h] at hends
  cases hends with
  | lost hentry hvalue hpinned =>
    refine .inl ⟨⟨_, rfl⟩, fun hmem => ?_, rfl⟩
    rw [isPinned_iff.mpr hmem] at hpinned
    cases hpinned
  | failed hentry hvalue he => exact .inr ⟨he.imp_right isPinned_iff.mp, rfl⟩
  | unread hentry => exact stays hentry
  | unreported hentry => exact stays hentry

/-! ## What becomes of the entries -/

/-- The same collection, but for the entries of one id. -/
structure SameBut (id : ι) (l l' : Collection ι) : Prop where
  channel : l'.channel = l.channel
  cache : l'.cache = l.cache
  path : l'.path = l.path
  pinned : l'.pinned = l.pinned
  others : (l'.entries.filter fun r => r.id ≠ id) = l.entries.filter fun r => r.id ≠ id

namespace SameBut

omit [ResourceId ι] in
theorem refl (id : ι) (l : Collection ι) : SameBut id l l := ⟨rfl, rfl, rfl, rfl, rfl⟩

theorem add (r : Resource ι) (l : Collection ι) : SameBut r.id l (l.add r) :=
  ⟨rfl, rfl, rfl, rfl, filter_insertEntry (decide_eq_false fun h => h rfl) l.entries⟩

omit [ResourceId ι] in
theorem drop (id : ι) (l : Collection ι) : SameBut id l (l.drop id) :=
  ⟨rfl, rfl, rfl, rfl, by rw [Collection.drop, List.filter_filter]; simp only [Bool.and_self]⟩

end SameBut

/-- What a read of an id makes of the entries, whatever comes of it. -/
structure Consistent (l : Collection ι) (w : World) (id : ι) : Prop where
  /-- What is found is the entry of the id, the one that there was if there was one, and has just
  been read: through its own cache, or as a field of what the collection reads. -/
  found : ∀ r l' w', get id (l, w) = .ok r (l', w') →
    r.id = id ∧ r ∈ l'.entries ∧ (∀ e, l.entry? id = some e → r = e ∧ l' = l) ∧
    ((∃ v, r.cache.value w = .ok v w') ∨ ∃ fields u, l.cache.value w = .ok (.object fields) u ∧
      Fields.value? fields (ResourceId.key id) = some r.slice ∧ w' = u.step .newNode) ∧
    ∃ v, outcome r.cache.peek w' = .ok v
  /-- An id that is not found has no entry afterwards, unless it is pinned. -/
  missing : ∀ path l' w', get id (l, w) = .error (.notFound path) (l', w') → id ∉ l.pinned →
    l'.isMaterialized id = false
  /-- Any other failure changes nothing. -/
  failed : ∀ e l' w', get id (l, w) = .error e (l', w') → (∀ path, e ≠ .notFound path) → l' = l
  /-- A pinned id has an entry and keeps it. -/
  pinned : ∀ p ∈ l.pinned, ∃ r ∈ l.entries, r.id = p ∧ r ∈ (after (get id) (l, w)).1.entries
  /-- Entries of other ids stay as they are. -/
  same : SameBut id l (after (get id) (l, w)).1

theorem same_get (l : Collection ι) (w : World) (id : ι) :
    SameBut id l (after (get id) (l, w)).1 := by
  cases hget : get id (l, w) with
  | ok r s =>
    rw [after_of_ok hget]
    rcases get_of_ok hget with ⟨-, heq, -⟩ | ⟨-, heq, fields, u, -, -, hid, -⟩
    · rw [heq]
      exact .refl id l
    · rw [heq, ← hid]
      exact .add r l
  | error e s =>
    rw [after_of_error hget]
    rcases get_of_error hget with ⟨-, -, heq⟩ | ⟨-, heq⟩
    · rw [heq]
      exact .drop id l
    · rw [heq]
      exact .refl id l

theorem mem_get_of_pinned (hr : r ∈ l.entries) (hpinned : r.id ∈ l.pinned) (w : World) (id : ι) :
    r ∈ (after (get id) (l, w)).1.entries := by
  cases hget : get id (l, w) with
  | ok e s =>
    rw [after_of_ok hget]
    rcases get_of_ok hget with ⟨-, heq, -⟩ | ⟨-, heq, -⟩
    · rwa [heq]
    · rw [heq]
      exact mem_insertEntry.mpr (.inr hr)
  | error e s =>
    rw [after_of_error hget]
    rcases get_of_error hget with ⟨-, hunpinned, heq⟩ | ⟨-, heq⟩
    · rw [heq]
      refine List.mem_filter.mpr ⟨hr, decide_eq_true fun hid => ?_⟩
      -- the id that is dropped is not pinned
      rw [hid] at hpinned
      exact hunpinned hpinned
    · rwa [heq]

/-- A new entry can be read because the cache that it reads through is held. -/
theorem consistent_of_regular (hregular : l.Regular) (hheld : w.holds l.cache.node = true)
    (id : ι) : l.Consistent w id where
  found r l' w' h := by
    rcases get_of_ok h with
      ⟨hentry, rfl, v, hvalue⟩ | ⟨hnew, rfl, fields, u, hvalue, hslice, hid, hcache, rfl⟩
    · obtain ⟨hmem, hid⟩ := mem_of_entry? hentry
      refine ⟨hid, hmem, fun e he => ⟨?_, rfl⟩, .inl ⟨v, hvalue⟩, v, ?_⟩
      · exact Option.some.inj (hentry.symm.trans he)
      rw [Cache.outcome_peek]
      exact (Cache.view_of_value hvalue).1
    · obtain ⟨hview, hsame⟩ := Cache.view_of_value hvalue
      have hheld' : u.holds l.cache.node = true := by
        rw [World.holds, hsame]
        exact hheld
      refine ⟨hid, mem_insertEntry.mpr (.inl rfl), fun e he => ?_,
        .inr ⟨fields, u, hvalue, hslice, rfl⟩, r.slice, ?_⟩
      · rw [isMaterialized, he] at hnew
        cases hnew
      · rw [hcache]
        exact peek_made (n := 1) hview hheld' hslice
  missing path l' w' h hid := by
    rcases get_of_error h with ⟨-, -, rfl⟩ | ⟨hnot | hpinned, -⟩
    · exact isMaterialized_drop l id
    · exact absurd rfl (hnot path)
    · exact absurd hpinned hid
  failed e l' w' h he := by
    rcases get_of_error h with ⟨⟨path, rfl⟩, -, -⟩ | ⟨-, heq⟩
    · exact absurd rfl (he path)
    · exact heq
  pinned p hp := by
    obtain ⟨r, hr, rfl⟩ := hregular.pinned p hp
    exact ⟨r, hr, rfl, mem_get_of_pinned hr hp w id⟩
  same := same_get l w id

end Collection

end LightBridge
