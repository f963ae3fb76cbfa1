import LightBridge.Proofs.Cache.Freshness
import LightBridge.Proofs.Cache.WellFormed
import LightBridge.Resource.Collection

/-!
# Fields that are taken out

Taking a field out of an object inside a value takes away all places that lead through it and no
others; the fields beside it may change their order. As long as nobody fetches the root anew or puts
something there, a place that was emptied stays empty, and who finds something there has fetched.
-/

namespace LightBridge

theorem Fields.put_self {fields : Fields} {key : String} {value : Json}
    (h : value? fields key = some value) : put fields key value = fields := by
  induction fields with
  | nil => cases h
  | cons field rest ih =>
    obtain ⟨k, v⟩ := field
    rw [value?_cons] at h
    rw [put]
    by_cases hk : k = key
    · rw [if_pos hk] at h ⊢
      rw [hk, Option.some.inj h]
    · rw [if_neg hk] at h ⊢
      rw [ih h]

namespace Json

variable {v inner new : Json} {path p : List String} {key : String}

theorem putAt_self (h : v.at? path = some inner) : putAt inner path v = v := by
  induction path generalizing v with
  | nil =>
    cases h
    rfl
  | cons key rest ih =>
    rw [at?_cons, Option.bind_eq_some_iff] at h
    obtain ⟨u, hkey, hrest⟩ := h
    obtain ⟨fields, rfl, hvalue⟩ := exists_fields_of_get? hkey
    rw [putAt_cons hvalue, ih hrest, Fields.put_self hvalue]

/-- `new` is `old` without the field `key` of the object that `path` leads to. -/
structure Evicted (path : List String) (key : String) (old new : Json) : Prop where
  /-- The object loses that field and keeps the others, in some order. -/
  object : ∀ fields, old.at? path = some (.object fields) →
    ∃ fields', new.at? path = some (.object fields') ∧
      fields'.Perm (fields.filter fun field => field.1 ≠ key)
  /-- The objects around it keep their fields. -/
  around : ∀ p fields, p <+: path → p ≠ path → old.at? p = some (.object fields) →
    ∃ fields', new.at? p = some (.object fields') ∧ Fields.keys fields' = Fields.keys fields
  /-- Of all other places, those that lead through the field are gone. -/
  rest : ∀ p, ¬ p <+: path → new.at? p = if path ++ [key] <+: p then none else old.at? p
  /-- Where there is no such object, nothing changes. -/
  same : (∀ fields, old.at? path ≠ some (.object fields)) → new = old

theorem Evicted.gone {old : Json} (h : Evicted path key old new) :
    new.at? (path ++ [key]) = none := by
  rw [h.rest _ fun hprefix => ?_, if_pos (List.prefix_refl _)]
  have hlength := hprefix.length_le
  rw [List.length_append, List.length_singleton] at hlength
  exact absurd hlength (Nat.not_succ_le_self _)

theorem Evicted.of_none (h : v.at? path = none) (key : String) : Evicted path key v v := by
  refine ⟨fun fields hfields => ?_, fun p fields _ _ hfields => ⟨fields, hfields, rfl⟩,
    fun p _ => ?_, fun _ => rfl⟩
  · rw [h] at hfields
    cases hfields
  · split
    · next hthrough =>
      obtain ⟨rest, rfl⟩ := hthrough
      rw [List.append_assoc, at?_append, h]
      rfl
    · rfl

open Collection (without)

theorem get?_without (h : inner.WellFormed) (key other : String) :
    (without key inner).get? other = if other = key then none else inner.get? other := by
  cases inner with
  | object fields =>
    rw [without, get?_object, get?_object]
    exact Fields.value?_remove (wellFormed_object_iff.mp h).1 key other
  | _ => exact (ite_self _).symm

theorem wellFormed_without (h : inner.WellFormed) (key : String) :
    (without key inner).WellFormed := by
  cases inner with
  | object fields =>
    obtain ⟨hdistinct, hall⟩ := wellFormed_object_iff.mp h
    refine wellFormed_object_iff.mpr ⟨hdistinct.remove key, fun field hfield => ?_⟩
    exact hall field ((Fields.mem_remove_iff hdistinct).mp hfield).1
  | _ => exact h

theorem evicted_putAt (hwell : v.WellFormed) (hat : v.at? path = some inner) (key : String) :
    Evicted path key v (putAt (without key inner) path v) := by
  have hinner : inner.WellFormed := wellFormed_at? hwell hat
  have hself : (putAt (without key inner) path v).at? path = some (without key inner) :=
    at?_putAt_self path hat
  refine ⟨fun fields hfields => ?_, fun p fields hp hne hfields => ?_, fun p hp => ?_,
    fun hobject => ?_⟩
  · cases hat.symm.trans hfields
    exact ⟨_, hself, Fields.remove_perm (wellFormed_object_iff.mp hinner).1 key⟩
  · -- the way leads on through one of the fields
    obtain ⟨rest, rfl⟩ := hp
    cases rest with
    | nil => exact absurd (List.append_nil p).symm hne
    | cons next rest =>
      rw [at?_append, hfields, Option.bind_some, at?_cons, get?_object,
        Option.bind_eq_some_iff] at hat
      obtain ⟨u, hnext, -⟩ := hat
      have hkey : next ∈ Fields.keys fields := by
        rw [← Fields.has_eq_true_iff, Fields.has, hnext]
        rfl
      refine ⟨Fields.put fields next (putAt (without key inner) rest u), ?_, ?_⟩
      · rw [at?_putAt_append p (next :: rest) hfields, putAt_cons hnext]
      · rw [Fields.keys_put, if_pos hkey]
  · by_cases hinside : path <+: p
    · obtain ⟨rest, rfl⟩ := hinside
      cases rest with
      | nil =>
        rw [List.append_nil] at hp
        exact absurd (List.prefix_refl path) hp
      | cons first rest =>
        have hthrough : path ++ [key] <+: path ++ first :: rest ↔ key = first := by
          rw [List.prefix_append_right_inj, List.cons_prefix_cons, and_iff_left List.nil_prefix]
        rw [at?_append, at?_append, hself, hat, Option.bind_some, Option.bind_some, at?_cons,
          at?_cons, get?_without hinner]
        by_cases hfirst : key = first
        · rw [if_pos hfirst.symm, if_pos (hthrough.mpr hfirst)]
          rfl
        · rw [if_neg (Ne.symm hfirst), if_neg (mt hthrough.mp hfirst)]
    · have hnot : ¬ path ++ [key] <+: p :=
        fun hthrough => hinside ((List.prefix_append path [key]).trans hthrough)
      rw [at?_putAt_beside hinside hp, if_neg hnot]
  · have hsame : without key inner = inner := by
      cases inner with
      | object fields => exact absurd hat (hobject fields)
      | _ => rfl
    rw [hsame, putAt_self hat]

end Json

/-! ## Places that stay empty -/

/-- What a root holds in a place. -/
def World.at? (w : World) (node : NodeId) (path : List String) : Option Json :=
  (w.snapshots.get? node).bind fun s => s.value.at? path

/-- A deed puts nothing into an empty place of a root: it brings no reply to the root, and an update
of something that the place lies in leaves the place empty. -/
def Deed.LeavesEmpty (node : NodeId) (path : List String) (w : World) : Deed → Prop
  | .event e => e.Spares node
  | d@(.fetch ..) => ∀ f ∈ w.fetched? d, ¬ f.Good node
  | .update c f => c.rootNode = node → ∀ rest, c.keys ++ rest = path →
      ∀ v : Json, v.at? rest = none → (f v).at? rest = none

namespace World

variable {w : World} {node : NodeId} {path : List String} {d : Deed} {deeds : List Deed}

/-- An update reaches a place from above or not at all. -/
theorem at?_updated {c : Cache} {f : Json → Json} {v : Json}
    (h : (Deed.update c f).LeavesEmpty node path w) (hempty : v.at? path = none) :
    (w.updated node (.update c f) v).at? path = none := by
  rw [updated]
  split
  · next hroot =>
    cases hold : v.at? c.keys with
    | none => exact hempty
    | some old =>
      dsimp only
      by_cases habove : c.keys <+: path
      · obtain ⟨rest, rfl⟩ := habove
        rw [Json.at?_append, hold, Option.bind_some] at hempty
        rw [Json.at?_append, Json.at?_putAt_self _ hold, Option.bind_some]
        exact h hroot.1 rest rfl old hempty
      · have hinside : ¬ path <+: c.keys := by
          rintro ⟨rest, hrest⟩
          -- nothing lies in an empty place
          rw [← hrest, Json.at?_append, hempty] at hold
          cases hold
        rwa [Json.at?_putAt_beside habove hinside]
  · exact hempty

theorem at?_enact (h : d.LeavesEmpty node path w) (hempty : w.at? node path = none) :
    (w.enact d).at? node path = none := by
  cases d with
  | event e =>
    have hsame : (w.enact (.event e)).snapshots.get? node = w.snapshots.get? node :=
      snapshots_step h w
    rwa [at?, hsame]
  | fetch other path' channel interval => rwa [at?, snapshots_fetch_of_not_good h]
  | update c f =>
    rw [at?, snapshots_update]
    rw [at?] at hempty
    cases hs : w.snapshots.get? node with
    | none => rfl
    | some s =>
      rw [hs] at hempty
      exact at?_updated h hempty

theorem at?_enactAll (h : w.Follows (fun u d => d.LeavesEmpty node path u) deeds)
    (hempty : w.at? node path = none) : (w.enactAll deeds).at? node path = none := by
  induction deeds generalizing w with
  | nil => exact hempty
  | cons d rest ih => exact ih h.2 (at?_enact h.1 hempty)

end World

namespace Cache

variable {c : Cache} {key : String} {w w' : World}

/-- What becomes of a world when a key is taken from what a cache stands for: the root of the cache
holds a value without that field, as old as before, and everything else stays as it is. -/
structure Swept (c : Cache) (key : String) (w w' : World) : Prop where
  world : w' = { w with snapshots := w'.snapshots }
  others : ∀ node, node ≠ c.rootNode → w'.snapshots.get? node = w.snapshots.get? node
  unfetched : w.snapshots.get? c.rootNode = none → w'.snapshots.get? c.rootNode = none
  root : ∀ s, w.snapshots.get? c.rootNode = some s → ∃ value,
    w'.snapshots.get? c.rootNode = some { s with value } ∧ Json.Evicted c.keys key s.value value

theorem Swept.gone (h : c.Swept key w w') : w'.at? c.rootNode (c.keys ++ [key]) = none := by
  rw [World.at?]
  cases hs : w.snapshots.get? c.rootNode with
  | none => rw [h.unfetched hs, Option.bind_none]
  | some s =>
    obtain ⟨value, hroot, hevicted⟩ := h.root s hs
    rw [hroot]
    exact hevicted.gone

theorem swept_patch (hw : w.WellFormed) (hlive : c.Live w) (key : String) :
    c.Swept key w (after (c.patch (Collection.without key)) w) := by
  cases hview : c.view w with
  | error e =>
    rw [after_of_error (patch_of_view_error hview _)]
    refine ⟨rfl, fun _ _ => rfl, id, fun s hs => ⟨s.value, hs, .of_none ?_ key⟩⟩
    -- a live cache that cannot be read has nothing in its place
    cases hat : s.value.at? c.keys with
    | none => rfl
    | some v => cases hview.symm.trans (view_eq_ok_iff.mpr ⟨hlive, s, hs, hat⟩)
  | ok v =>
    obtain ⟨s, hs, hat, hpatch⟩ := patch_of_view hview (Collection.without key)
    rw [after_of_ok hpatch]
    refine ⟨rfl, fun node hnode => Table.get?_set_of_ne _ _ hnode, fun hnone => ?_,
      fun s' hs' => ?_⟩
    · rw [hs] at hnone
      cases hnone
    · rw [hs] at hs'
      cases hs'
      exact ⟨_, Table.get?_set_self _ _ _, Json.evicted_putAt (hw _ _ hs) hat key⟩

end Cache

end LightBridge
