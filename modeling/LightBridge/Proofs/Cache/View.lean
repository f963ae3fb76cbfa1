import LightBridge.Cache
import LightBridge.Proofs.Channel.Request
import LightBridge.Proofs.Json.Path

/-!
# Caches as views of what their root holds

Reading goes down from the root field by field, and patching wraps a change once for every cache on
the way up. Both come to the same: the caches above have to be held, the root has to hold something,
and the fields that lead to the cache have to be there; the first of these that fails is the error
of both. A patch then replaces one place of what the root holds.
-/

namespace LightBridge.Cache

variable {w : World} {c : Cache} {v : Json}

/-- The path of the root that the cache reads from. -/
def rootPath : Cache → String
  | .root _ path _ _ => path
  | .child parent .. => parent.rootPath

/-- Fails when nobody holds one of the caches above; the nearest of these decides. -/
def linked (w : World) : Cache → Except Fault Unit
  | .root .. => .ok ()
  | c@(.child parent _ _) =>
    if w.holds parent.node then parent.linked w else .error (.detached c.path)

/-- Somebody holds every cache above. -/
def Live (w : World) (c : Cache) : Prop := ∀ node ∈ c.above, w.holds node = true

instance (w : World) (c : Cache) : Decidable (c.Live w) :=
  inferInstanceAs (Decidable (∀ node ∈ c.above, w.holds node = true))

/-- What the cache stands for in a value that its root holds. -/
def extract : Cache → Json → Except Fault Json
  | .root .., v => .ok v
  | c@(.child parent _ key), v =>
    match parent.extract v with
    | .ok u => field c.path key u
    | .error e => .error e

/-- What can be read from the cache without fetching. -/
def view (c : Cache) (w : World) : Except Fault Json :=
  match c.linked w with
  | .error e => .error e
  | .ok () =>
    match w.snapshots.get? c.rootNode with
    | none => .error (.cacheEmpty c.rootPath)
    | some s => c.extract s.value

/-- A change of what the cache stands for, as a change of what its root holds. -/
def embed : Cache → (Json → Except Fault Json) → Json → Except Fault Json
  | .root .., f => f
  | c@(.child parent _ key), f => parent.embed (onField c.path key f)

/-! ## Caches above -/

/-- What is done through the cache above is done when somebody holds that cache, and fails
otherwise. -/
theorem requireHeld_bind {α : Type} (parent : Cache) (path : String) (next : Unit → Act α)
    (w : World) :
    (requireHeld parent path >>= next) w =
      if w.holds parent.node then next () w else .error (.detached path) w := by
  simp only [bind, EStateM.bind, requireHeld]
  cases w.holds parent.node <;> rfl

theorem linked_congr {w' : World} (h : w'.held = w.held) (c : Cache) :
    c.linked w' = c.linked w := by
  induction c with
  | root => rfl
  | child parent node key ih =>
    have hholds : w'.holds parent.node = w.holds parent.node := by
      rw [World.holds, World.holds, h]
    rw [linked, linked, ih, hholds]

/-- What begins with asking for the cache above, and fails when that cache does, fails as soon as a
link is cut. -/
theorem eq_error_of_linked {α : Type} {f : Cache → Act α} {rest : Cache → NodeId → String → Act α}
    {e : Fault}
    (hf : ∀ parent node key, f (child parent node key) =
      requireHeld parent (child parent node key).path >>= fun _ => rest parent node key)
    (hrest : ∀ parent node key, f parent w = .error e w → rest parent node key w = .error e w)
    (h : c.linked w = .error e) : f c w = .error e w := by
  induction c with
  | root => nomatch h
  | child parent node key ih =>
    rw [linked] at h
    rw [hf, requireHeld_bind]
    by_cases hheld : w.holds parent.node = true
    · rw [if_pos hheld] at h ⊢
      exact hrest parent node key (ih h)
    · rw [if_neg hheld] at h ⊢
      cases h
      rfl

/-- A read of a view fails as soon as a link is cut. -/
theorem read_of_linked_error {f : Cache → Act Json} {next : Cache → NodeId → String → Json → Act Json}
    {e : Fault}
    (hf : ∀ parent node key, f (child parent node key) =
      requireHeld parent (child parent node key).path >>= fun _ => f parent >>= next parent node key)
    (h : c.linked w = .error e) : f c w = .error e w :=
  eq_error_of_linked hf (fun _ _ _ h => by simp only [bind, EStateM.bind, h]) h

theorem linked_eq_ok_iff : c.linked w = .ok () ↔ c.Live w := by
  induction c with
  | root => simp [linked, Live, above]
  | child parent node key ih =>
    have hlive : (child parent node key).Live w ↔ w.holds parent.node = true ∧ parent.Live w := by
      simp [Live, above]
    rw [hlive, ← ih, linked]
    cases w.holds parent.node <;> simp

/-! ## Reading -/

theorem field_eq_ok_iff {path key : String} {u : Json} :
    field path key u = .ok v ↔ u.get? key = some v := by
  unfold field
  cases u.get? key <;> simp

theorem extract_eq_ok_iff {root : Json} : c.extract root = .ok v ↔ root.at? c.keys = some v := by
  induction c generalizing v with
  | root => simp [extract, keys]
  | child parent node key ih =>
    rw [keys, Json.at?_append, Option.bind_eq_some_iff, extract]
    cases h : parent.extract root with
    | error e =>
      -- nothing above the field, so no field
      have hnone : ∀ u, root.at? parent.keys ≠ some u := by
        intro u hu
        rw [← ih, h] at hu
        nomatch hu
      simp [hnone]
    | ok u =>
      have hu : root.at? parent.keys = some u := ih.mp h
      rw [hu, field_eq_ok_iff]
      simp [Json.at?_cons]

/-- A cache can be read when it is live, and its root holds something in its place. -/
theorem view_eq_ok_iff :
    c.view w = .ok v ↔
      c.Live w ∧ ∃ s, w.snapshots.get? c.rootNode = some s ∧ s.value.at? c.keys = some v := by
  rw [← linked_eq_ok_iff, view]
  cases c.linked w with
  | error e => simp
  | ok _ =>
    cases w.snapshots.get? c.rootNode with
    | none => simp
    | some s => simp [extract_eq_ok_iff]

theorem view_congr {w' : World} (hheld : w'.held = w.held) (hsnapshots : w'.snapshots = w.snapshots)
    (c : Cache) : c.view w' = c.view w := by
  rw [view, view, linked_congr hheld, hsnapshots]

theorem peek_eq (c : Cache) (w : World) : c.peek w = Act.ofExcept (c.view w) w := by
  induction c with
  | root node path channel interval =>
    rw [peek, rootValue, view, linked, rootNode, rootPath]
    cases w.snapshots.get? node <;> rfl
  | child parent node key ih =>
    have hview : (child parent node key).view w =
        if w.holds parent.node then
          match parent.view w with
          | .ok u => field (child parent node key).path key u
          | .error e => .error e
        else .error (.detached (child parent node key).path) := by
      rw [view, linked, view]
      cases w.holds parent.node with
      | false => rfl
      | true =>
        rw [if_pos rfl, if_pos rfl]
        cases parent.linked w with
        | error e => rfl
        | ok _ =>
          rw [rootNode, rootPath]
          cases w.snapshots.get? parent.rootNode <;> rfl
    rw [hview, peek, requireHeld_bind]
    split
    · simp only [bind, EStateM.bind, ih]
      cases parent.view w <;> rfl
    · rfl

theorem outcome_peek (c : Cache) (w : World) : outcome c.peek w = c.view w := by
  have h : outcome c.peek w = outcome (Act.ofExcept (c.view w)) w := by
    simp only [outcome, peek_eq]
  rw [h, outcome_ofExcept]

/-! ## What cannot be read -/

/-- The root of a live cache holds something, and nothing in the place of the cache. -/
def Gone (w : World) (c : Cache) : Prop :=
  c.Live w ∧ ∃ s, w.snapshots.get? c.rootNode = some s ∧ s.value.at? c.keys = none

theorem gone_congr {w' : World} (hheld : w'.held = w.held) (hsnapshots : w'.snapshots = w.snapshots)
    (c : Cache) : c.Gone w' ↔ c.Gone w := by
  have hlive : c.Live w' ↔ c.Live w := by
    rw [← linked_eq_ok_iff, ← linked_eq_ok_iff, linked_congr hheld]
  rw [Gone, Gone, hlive, hsnapshots]

theorem linked_error {e : Fault} (h : c.linked w = .error e) : ∃ path, e = .detached path := by
  induction c with
  | root => nomatch h
  | child parent node key ih =>
    rw [linked] at h
    split at h
    · exact ih h
    · cases h
      exact ⟨_, rfl⟩

theorem extract_error {root : Json} {e : Fault} (h : c.extract root = .error e) :
    ∃ path, e = .notFound path := by
  induction c with
  | root => cases h
  | child parent node key ih =>
    rw [extract] at h
    split at h
    · rw [field] at h
      split at h
      · cases h
      · cases h
        exact ⟨_, rfl⟩
    · cases h
      exact ih ‹_›

/-- There are three reasons why a cache cannot be read: a link is cut, nothing was fetched yet, or
what was fetched has nothing in its place. -/
theorem view_error {e : Fault} (h : c.view w = .error e) :
    (∃ path, e = .detached path) ∨ (∃ path, e = .cacheEmpty path) ∨
      (∃ path, e = .notFound path) ∧ c.Gone w := by
  rw [view] at h
  cases hlinked : c.linked w with
  | error e' =>
    rw [hlinked] at h
    cases h
    exact .inl (linked_error hlinked)
  | ok _ =>
    rw [hlinked] at h
    dsimp only at h
    cases hs : w.snapshots.get? c.rootNode with
    | none =>
      rw [hs] at h
      cases h
      exact .inr (.inl ⟨_, rfl⟩)
    | some s =>
      rw [hs] at h
      refine .inr (.inr ⟨extract_error h, linked_eq_ok_iff.mp hlinked, s, hs, ?_⟩)
      cases hat : s.value.at? c.keys with
      | none => rfl
      | some v =>
        have hok := extract_eq_ok_iff.mpr hat
        cases h.symm.trans hok

theorem view_of_gone (h : c.Gone w) : ∃ path, c.view w = .error (.notFound path) := by
  obtain ⟨hlive, s, hs, hat⟩ := h
  have hview : c.view w = c.extract s.value := by
    rw [view, linked_eq_ok_iff.mpr hlive, hs]
  cases hextract : c.extract s.value with
  | error e =>
    obtain ⟨path, rfl⟩ := extract_error hextract
    exact ⟨path, hview.trans hextract⟩
  | ok v =>
    have hsome := extract_eq_ok_iff.mp hextract
    rw [hat] at hsome
    nomatch hsome

/-- The cache can be asked whether the next read will fetch, and answers that it will not. -/
def Fresh (w : World) (c : Cache) : Prop := (outcome c.needsRefresh w).toOption = some false

instance (w : World) (c : Cache) : Decidable (c.Fresh w) :=
  inferInstanceAs (Decidable ((outcome c.needsRefresh w).toOption = some false))

/-- What is fresh is read without fetching. -/
theorem value_of_fresh (h : c.Fresh w) : c.value w = c.peek w := by
  induction c with
  | root node path channel interval =>
    have hstale : isStale interval (w.snapshots.get? node) w.now = false := Option.some.inj h
    rw [value, peek]
    simp only [bind, EStateM.bind, needsRefresh, hstale]
    rfl
  | child parent node key ih =>
    rw [value, peek, requireHeld_bind, requireHeld_bind]
    by_cases hheld : w.holds parent.node = true
    · have hparent : parent.Fresh w := by
        rwa [Fresh, needsRefresh, outcome, requireHeld_bind, if_pos hheld] at h
      rw [if_pos hheld, if_pos hheld]
      simp only [bind, EStateM.bind, ih hparent]
    · rw [if_neg hheld, if_neg hheld]

/-! ## Patching -/

theorem onField_of_ok {path key : String} {u : Json} (h : u.get? key = some v)
    (f : Json → Except Fault Json) :
    onField path key f u = (f v).map fun value => Json.putAt value [key] u := by
  obtain ⟨fields, rfl, hvalue⟩ := Json.exists_fields_of_get? h
  rw [onField, hvalue]
  dsimp only
  congr 1
  funext value
  rw [Json.putAt_cons hvalue, Json.putAt]

theorem onField_of_error {path key : String} {u : Json} {e : Fault}
    (h : field path key u = .error e) (f : Json → Except Fault Json) :
    onField path key f u = .error e := by
  cases u with
  | object fields =>
    rw [field, Json.get?_object] at h
    rw [onField]
    cases hvalue : Fields.value? fields key with
    | some x =>
      rw [hvalue] at h
      nomatch h
    | none =>
      rw [hvalue] at h
      exact h
  | _ => exact h

/-- Where there is something to change, the change replaces it in what the root holds. -/
theorem embed_of_ok {root : Json} (h : c.extract root = .ok v) (f : Json → Except Fault Json) :
    c.embed f root = (f v).map fun value => Json.putAt value c.keys root := by
  induction c generalizing f v with
  | root =>
    cases h
    rw [embed, keys]
    cases f root <;> rfl
  | child parent node key ih =>
    have hat := extract_eq_ok_iff.mp h
    rw [keys, Json.at?_append, Option.bind_eq_some_iff] at hat
    obtain ⟨u, hu, hkey⟩ := hat
    have hget : u.get? key = some v := by
      rw [Json.at?_cons, Option.bind_eq_some_iff] at hkey
      obtain ⟨x, hx, hsame⟩ := hkey
      rw [hx, ← Option.some.inj hsame]
    rw [embed, ih (extract_eq_ok_iff.mpr hu), onField_of_ok hget, keys]
    cases f v with
    | error e => rfl
    | ok value =>
      have hput : Json.putAt value (parent.keys ++ [key]) root =
          Json.putAt (Json.putAt value [key] u) parent.keys root :=
        Json.putAt_append parent.keys [key] hu
      simp only [Except.map, hput]

/-- Where there is nothing, a change fails as reading does. -/
theorem embed_of_error {root : Json} {e : Fault} (h : c.extract root = .error e)
    (f : Json → Except Fault Json) : c.embed f root = .error e := by
  induction c generalizing f with
  | root => nomatch h
  | child parent node key ih =>
    rw [embed]
    rw [extract] at h
    cases hparent : parent.extract root with
    | error e' =>
      rw [hparent] at h
      cases h
      exact ih hparent _
    | ok u =>
      rw [hparent] at h
      rw [embed_of_ok hparent, onField_of_error h]
      rfl

theorem patchWith_eq (c : Cache) (f : Json → Except Fault Json) (w : World) :
    c.patchWith f w =
      match c.linked w with
      | .error e => .error e w
      | .ok () => patchRoot c.rootNode c.rootPath (c.embed f) w := by
  induction c generalizing f with
  | root => rfl
  | child parent node key ih =>
    rw [patchWith, linked, requireHeld_bind]
    split
    · exact ih _
    · rfl

/-- A patch of what can be read replaces it in what the root holds, and nothing else. -/
theorem patch_of_view (h : c.view w = .ok v) (f : Json → Json) :
    ∃ s, w.snapshots.get? c.rootNode = some s ∧ s.value.at? c.keys = some v ∧
      c.patch f w = .ok ()
        { w with
          snapshots :=
            w.snapshots.set c.rootNode { s with value := Json.putAt (f v) c.keys s.value } } := by
  obtain ⟨hlive, s, hs, hat⟩ := view_eq_ok_iff.mp h
  have hlinked : c.linked w = .ok () := linked_eq_ok_iff.mpr hlive
  have hembed := embed_of_ok (extract_eq_ok_iff.mpr hat) fun v => .ok (f v)
  refine ⟨s, hs, hat, ?_⟩
  rw [patch, patchWith_eq, hlinked]
  simp only [patchRoot, hs, hembed, Except.map]

theorem patch_of_view_error {e : Fault} (h : c.view w = .error e) (f : Json → Json) :
    c.patch f w = .error e w := by
  rw [view] at h
  rw [patch, patchWith_eq]
  cases hlinked : c.linked w with
  | error e' =>
    rw [hlinked] at h
    cases h
    rfl
  | ok _ =>
    rw [hlinked] at h
    dsimp only at h ⊢
    cases hs : w.snapshots.get? c.rootNode with
    | none =>
      rw [hs] at h
      cases h
      simp only [patchRoot, hs]
    | some s =>
      rw [hs] at h
      have hembed := embed_of_error h fun v => .ok (f v)
      simp only [patchRoot, hs, hembed]

theorem sent_patch (c : Cache) (f : Json → Json) (w : World) :
    (after (c.patch f) w).sent = w.sent := by
  cases hview : c.view w with
  | error e => rw [after_of_error (patch_of_view_error hview f)]
  | ok v =>
    obtain ⟨s, -, -, hpatch⟩ := patch_of_view hview f
    rw [after_of_ok hpatch]

/-! ## Other views -/

/-- Key lists apart: neither leads through the other. -/
def Apart (first second : List String) : Prop := ¬ first <+: second ∧ ¬ second <+: first

instance (first second : List String) : Decidable (Apart first second) :=
  inferInstanceAs (Decidable (¬ first <+: second ∧ ¬ second <+: first))

/-- A cache that does not lie on the way to a place, or inside it, reads as before when that place
is filled anew; what is missing for it stays missing at the same field. -/
theorem extract_putAt_of_apart {path : List String} {root old new : Json} {other : Cache}
    (hold : root.at? path = some old) (hapart : Apart path other.keys) :
    other.extract (Json.putAt new path root) = other.extract root := by
  induction other with
  | root => exact absurd List.nil_prefix hapart.2
  | child parent node key ih =>
    obtain ⟨houtside, hinside⟩ := hapart
    rw [keys] at houtside hinside
    by_cases hparent : parent.keys <+: path
    · -- the way to the place leads through the parent, and on through another field
      obtain ⟨rest, rfl⟩ := hparent
      cases rest with
      | nil =>
        rw [List.append_nil] at houtside
        exact absurd (List.prefix_append parent.keys [key]) houtside
      | cons next rest =>
        have hnext : key ≠ next := by
          rintro rfl
          apply hinside
          exact (List.prefix_append_right_inj parent.keys).mpr (List.prefix_append [key] rest)
        have hat := hold
        rw [Json.at?_append, Option.bind_eq_some_iff] at hat
        obtain ⟨u, hu, -⟩ := hat
        have hbefore : parent.extract root = .ok u := extract_eq_ok_iff.mpr hu
        have hafter : parent.extract (Json.putAt new (parent.keys ++ next :: rest) root) =
            .ok (Json.putAt new (next :: rest) u) :=
          extract_eq_ok_iff.mpr (Json.at?_putAt_append parent.keys (next :: rest) hu)
        rw [extract, extract, hbefore, hafter]
        dsimp only
        rw [field, field, Json.get?_putAt_of_ne hnext]
    · have hbeside : ¬ path <+: parent.keys :=
        fun h => houtside (h.trans (List.prefix_append parent.keys [key]))
      rw [extract, extract, ih ⟨hbeside, hparent⟩]

/-- `w'` has another value in the place of a cache, and reads like `w` everywhere else. -/
structure Replaced (c : Cache) (new : Json) (w w' : World) : Prop where
  self : c.view w' = .ok new
  others : ∀ other : Cache, (other.rootNode = c.rootNode → Apart c.keys other.keys) →
    other.view w' = other.view w
  fetchedAt : ∀ node, (w'.snapshots.get? node).map (·.fetchedAt) =
    (w.snapshots.get? node).map (·.fetchedAt)

theorem replaced_of_set {w' : World} {s : Snapshot} {new : Json} (hview : c.view w = .ok v)
    (hroot : w.snapshots.get? c.rootNode = some s) (hat : s.value.at? c.keys = some v)
    (hheld : w'.held = w.held)
    (hset : w'.snapshots =
      w.snapshots.set c.rootNode { s with value := Json.putAt new c.keys s.value }) :
    Replaced c new w w' := by
  have hself : w'.snapshots.get? c.rootNode =
      some { s with value := Json.putAt new c.keys s.value } := by
    rw [hset]
    exact Table.get?_set_self _ _ _
  have hother : ∀ node, node ≠ c.rootNode → w'.snapshots.get? node = w.snapshots.get? node := by
    intro node hnode
    rw [hset]
    exact Table.get?_set_of_ne _ _ hnode
  refine ⟨?_, fun other hapart => ?_, fun node => ?_⟩
  · have hlinked : c.linked w' = .ok () := by
      rw [linked_congr hheld, linked_eq_ok_iff]
      exact (view_eq_ok_iff.mp hview).1
    have hnow : c.extract (Json.putAt new c.keys s.value) = .ok new :=
      extract_eq_ok_iff.mpr (Json.at?_putAt_self c.keys hat)
    rw [view, hlinked, hself]
    exact hnow
  · rw [view, view, linked_congr hheld]
    by_cases hsame : other.rootNode = c.rootNode
    · rw [hsame, hself, hroot]
      dsimp only
      rw [extract_putAt_of_apart hat (hapart hsame)]
    · rw [hother _ hsame]
  · by_cases hnode : node = c.rootNode
    · rw [hnode, hself, hroot]
      rfl
    · rw [hother _ hnode]

/-- **Views.** A patch succeeds exactly when the cache can be read without fetching, and fails with
the same error otherwise. When it succeeds, the cache then reads as the change of what it read
before, and every cache of another root, or with a key list apart, reads as before. When it fails,
nothing is changed at all. In no case is anything sent, nor does a root count as fetched anew. -/
theorem patch_lawful (c : Cache) (f : Json → Json) (w : World) :
    let w' := after (c.patch f) w
    (∀ v, outcome c.peek w = .ok v →
      outcome (c.patch f) w = .ok () ∧ outcome c.peek w' = .ok (f v)) ∧
    (∀ e, outcome c.peek w = .error e → outcome (c.patch f) w = .error e ∧ w' = w) ∧
    (∀ other : Cache, (other.rootNode = c.rootNode → Apart c.keys other.keys) →
      outcome other.peek w' = outcome other.peek w) ∧
    (∀ node, (w'.snapshots.get? node).map (·.fetchedAt) =
      (w.snapshots.get? node).map (·.fetchedAt)) ∧
    w'.sent = w.sent := by
  intro w'
  simp only [outcome_peek]
  cases hview : c.view w with
  | error e =>
    have hpatch := patch_of_view_error hview f
    have hsame : w' = w := after_of_error hpatch
    rw [hsame]
    refine ⟨fun v h => ?_, fun e' h => ?_, fun _ _ => rfl, fun _ => rfl, rfl⟩
    · cases h
    · cases h
      exact ⟨outcome_of_error hpatch, rfl⟩
  | ok v =>
    obtain ⟨s, hroot, hat, hpatch⟩ := patch_of_view hview f
    have hafter : w' = { w with
        snapshots :=
          w.snapshots.set c.rootNode { s with value := Json.putAt (f v) c.keys s.value } } :=
      after_of_ok hpatch
    have hreplaced : Replaced c (f v) w w' :=
      replaced_of_set hview hroot hat (by rw [hafter]) (by rw [hafter])
    refine ⟨fun v' h => ?_, fun e h => ?_, hreplaced.others, hreplaced.fetchedAt, by rw [hafter]⟩
    · cases h
      exact ⟨outcome_of_ok hpatch, hreplaced.self⟩
    · cases h

end LightBridge.Cache
