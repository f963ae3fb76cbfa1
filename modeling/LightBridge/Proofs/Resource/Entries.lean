import LightBridge.Proofs.Resource.Mirror

/-!
# What becomes of entries

An operation of a collection that fails leaves the entries as they are. One that succeeds adds what
it made, or drops what the bridge confirmed that it deleted.
-/

namespace LightBridge

namespace Collection

variable {ι : Type} {l l' : Collection ι} {w w' : World} {id : ι}

theorem after_reading {α : Type} (f : Collection ι → Act α) (l : Collection ι) (w : World) :
    after (reading f) (l, w) = (l, after (f l) w) :=
  after_beside (f l) l w

variable [DecidableEq ι] [ResourceId ι]

theorem eq_of_getAll_error {e : Fault} (h : getAll (l, w) = .error e (l', w')) : l' = l := by
  cases hreported : l.reported w with
  | error e u =>
    rw [getAll_of_error hreported] at h
    cases h
    rfl
  | ok fields u =>
    obtain ⟨made, -, hrun⟩ := exists_made (l.retain fields) fields u
    rw [getAll_of_ok hreported hrun] at h
    nomatch h

omit [ResourceId ι] in
theorem mem_of_entry? {r : Resource ι} (h : l.entry? id = some r) : r ∈ l.entries ∧ r.id = id := by
  unfold entry? at h
  exact ⟨List.mem_of_find?_eq_some h, by simpa using List.find?_some h⟩

/-- The ways in which a read of an id ends. -/
inductive ReadEnds (l : Collection ι) (w : World) (id : ι) :
    EStateM.Result Fault (Collection ι × World) (Resource ι) → Prop where
  /-- The entry that there was could be read again. -/
  | found {r : Resource ι} {v : Json} {u : World} (hentry : l.entry? id = some r)
    (hvalue : r.cache.value w = .ok v u) : ReadEnds l w id (.ok r (l, u))
  /-- There is nothing in the place of the entry any more, and it is dropped. -/
  | lost {r : Resource ι} {path : String} {u : World} (hentry : l.entry? id = some r)
    (hvalue : r.cache.value w = .error (.notFound path) u) (hpinned : l.isPinned id = false) :
    ReadEnds l w id (.error (.notFound path) (l.drop id, u))
  /-- The entry stays: it is pinned, or could not be read for another reason. -/
  | failed {r : Resource ι} {e : Fault} {u : World} (hentry : l.entry? id = some r)
    (hvalue : r.cache.value w = .error e u)
    (he : (∀ path, e ≠ .notFound path) ∨ l.isPinned id = true) :
    ReadEnds l w id (.error e (l, u))
  /-- There is no entry, and the collection could not be read. -/
  | unread {e : Fault} {u : World} (hentry : l.entry? id = none)
    (hvalue : l.cache.value w = .error e u) : ReadEnds l w id (.error e (l, u))
  /-- There is no entry, and what the collection reads has no field for one. -/
  | unreported {v : Json} {u : World} (hentry : l.entry? id = none)
    (hvalue : l.cache.value w = .ok v u) (hslice : v.get? (ResourceId.key id) = none) :
    ReadEnds l w id (.error (.notFound (l.entryPath id)) (l, u))
  /-- A new entry stands for the field under the key of the id. -/
  | made {v slice : Json} {u : World} {r : Resource ι} (hentry : l.entry? id = none)
    (hvalue : l.cache.value w = .ok v u) (hslice : v.get? (ResourceId.key id) = some slice)
    (hr : r = ⟨id, slice, .child l.cache u.fresh (ResourceId.key id)⟩) :
    ReadEnds l w id (.ok r (l.add r, u.step .newNode))

theorem ends_get (l : Collection ι) (w : World) (id : ι) : ReadEnds l w id (get id (l, w)) := by
  unfold get
  cases hentry : l.entry? id with
  | some r =>
    obtain ⟨-, rfl⟩ := mem_of_entry? hentry
    simp only [bind, EStateM.bind, ActOn.current, hentry, reread]
    cases hvalue : r.cache.value w with
    | ok v u => exact .found hentry hvalue
    | error e u =>
      cases e with
      | notFound path =>
        dsimp only
        split
        · next hpinned => exact .failed hentry hvalue (.inr hpinned)
        · next hpinned => exact .lost hentry hvalue (Bool.not_eq_true _ ▸ hpinned)
      | _ => exact .failed hentry hvalue (.inl fun path => Fault.noConfusion)
  | none =>
    simp only [bind, EStateM.bind, ActOn.current, hentry]
    cases hvalue : l.cache.value w with
    | error e u =>
      rw [lift_eq_of_error hvalue]
      exact .unread hentry hvalue
    | ok v u =>
      rw [lift_eq_of_ok hvalue]
      dsimp only
      cases hslice : v.get? (ResourceId.key id) with
      | none => exact .unreported hentry hvalue hslice
      | some slice => exact .made hentry hvalue hslice rfl

/-- Whether the bridge, asked to delete a resource, confirms that it did. -/
def deletionConfirmed (l : Collection ι) (id : ι) (w : World) : Bool :=
  match outcome (l.channel.request .delete (l.entryPath id) (.object [])) w with
  | .ok reply => Reply.confirmsDeletion reply (l.entryPath id)
  | .error _ => false

/-- The collection without an id, as an entry and as a pin. -/
def forget (l : Collection ι) (id : ι) : Collection ι :=
  { l with
    entries := l.entries.filter fun r => r.id ≠ id
    pinned := l.pinned.filter fun p => p ≠ id }

/-- What a removal makes of the reply. -/
theorem remove_eq (id : ι) (l : Collection ι) (w : World) :
    remove id (l, w) =
      match l.channel.request .delete (l.entryPath id) (.object []) w with
      | .error e u => .error e (l, u)
      | .ok reply u =>
        if Reply.confirmsDeletion reply (l.entryPath id) = true then
          match l.evict (ResourceId.key id) u with
          | .error e u => .error e (l.forget id, u)
          | .ok () u => .ok true (l.forget id, u)
        else .ok false (l, u) := by
  simp only [remove, bind, EStateM.bind, ActOn.current]
  cases hrequest : l.channel.request .delete (l.entryPath id) (.object []) w with
  | error e u => rw [lift_eq_of_error hrequest]
  | ok reply u =>
    rw [lift_eq_of_ok hrequest]
    dsimp only
    split
    · show EStateM.bind (liftM (l.evict (ResourceId.key id)) : ActOn (Collection ι) Unit)
        (fun _ => pure true) (l.forget id, u) = _
      rw [EStateM.bind]
      cases hevict : l.evict (ResourceId.key id) u with
      | error e u' => rw [lift_eq_of_error hevict]
      | ok _ u' =>
        rw [lift_eq_of_ok hevict]
        rfl
    · rfl

/-- A confirmed deletion is forgotten also when the state that is held cannot be changed. -/
theorem after_remove (id : ι) (l : Collection ι) (w : World) :
    (after (remove id) (l, w)).1 =
      if l.deletionConfirmed id w then
        { l.drop id with pinned := l.pinned.filter fun p => p ≠ id }
      else l := by
  unfold deletionConfirmed outcome
  simp only [after, remove_eq]
  cases l.channel.request .delete (l.entryPath id) (.object []) w with
  | error e u => rw [if_neg Bool.false_ne_true]
  | ok reply u =>
    dsimp only
    by_cases hconfirmed : Reply.confirmsDeletion reply (l.entryPath id) = true
    · rw [if_pos hconfirmed, if_pos hconfirmed]
      cases l.evict (ResourceId.key id) u <;> rfl
    · rw [if_neg hconfirmed, if_neg hconfirmed]

/-- Nothing but a listing, a read or a removal changes a collection. -/
theorem after_perform (operation : Operation ι) (s : Collection ι × World) :
    (after (perform operation) s).1 = s.1 ∨
    (operation = .getAll ∧ after (perform operation) s = after getAll s) ∨
    (∃ id, operation = .get id ∧ after (perform operation) s = after (get id) s) ∨
    (∃ id, operation = .remove id ∧ after (perform operation) s = after (remove id) s) := by
  obtain ⟨l, w⟩ := s
  cases operation with
  | getAll => exact .inr (.inl ⟨rfl, after_map _ _ _⟩)
  | get id => exact .inr (.inr (.inl ⟨id, rfl, after_map _ _ _⟩))
  | remove id => exact .inr (.inr (.inr ⟨id, rfl, after_map _ _ _⟩))
  | has id | hasCached id | create parameters =>
    refine .inl ?_
    rw [perform, after_map, after_reading]
  | isMaterialized | refresh | path | username | describe =>
    refine .inl ?_
    rw [perform, after_reading]

end Collection

end LightBridge
