import LightBridge.Json.Reader
import LightBridge.Proofs.Fields
import LightBridge.Proofs.Json.Path

/-!
# Well formed values

The keys of each object of a well formed value are distinct. Setting fields keeps that, and whatever
is read from a text has it: a repeated key takes the place of the one before.
-/

namespace LightBridge

section Results

variable {ε α β : Type} {x : Except ε α}

theorem exists_of_bind_eq_ok {f : α → Except ε β} {b : β} (h : (x >>= f) = .ok b) :
    ∃ a, x = .ok a ∧ f a = .ok b := by
  cases x with
  | error e => nomatch h
  | ok a => exact ⟨a, rfl, h⟩

theorem exists_of_map_eq_ok {f : α → β} {b : β} (h : x.map f = .ok b) :
    ∃ a, x = .ok a ∧ f a = b := by
  cases x with
  | error e => nomatch h
  | ok a => exact ⟨a, rfl, Except.ok.inj h⟩

end Results

namespace Json

variable {v : Json} {fields : Fields} {key : String}

theorem wellFormedItems_iff {items : List Json} :
    wellFormedItems items ↔ ∀ item ∈ items, item.WellFormed := by
  induction items with
  | nil => simp [wellFormedItems]
  | cons item rest ih => rw [wellFormedItems, ih, List.forall_mem_cons]

theorem wellFormedFields_iff :
    wellFormedFields fields ↔ ∀ field ∈ fields, field.2.WellFormed := by
  induction fields with
  | nil => simp [wellFormedFields]
  | cons field rest ih =>
    obtain ⟨k, v⟩ := field
    rw [wellFormedFields, ih, List.forall_mem_cons]

theorem wellFormed_array_iff {items : List Json} :
    (array items).WellFormed ↔ ∀ item ∈ items, item.WellFormed := by
  rw [WellFormed, wellFormedItems_iff]

theorem wellFormed_object_iff :
    (object fields).WellFormed ↔
      Fields.Distinct fields ∧ ∀ field ∈ fields, field.2.WellFormed := by
  rw [WellFormed, wellFormedFields_iff]

theorem wellFormed_of_value? (h : (object fields).WellFormed)
    (hvalue : Fields.value? fields key = some v) : v.WellFormed := by
  obtain ⟨hdistinct, hall⟩ := wellFormed_object_iff.mp h
  exact hall _ ((Fields.value?_eq_some_iff hdistinct).mp hvalue)

theorem wellFormed_put (h : (object fields).WellFormed) (key : String) (hv : v.WellFormed) :
    (object (Fields.put fields key v)).WellFormed := by
  obtain ⟨hdistinct, hall⟩ := wellFormed_object_iff.mp h
  refine wellFormed_object_iff.mpr ⟨hdistinct.put key v, fun field hfield => ?_⟩
  rcases Fields.mem_of_mem_put hfield with rfl | hold
  · exact hv
  · exact hall field hold

theorem wellFormed_putAll {updates : Fields} (h : (object fields).WellFormed)
    (hu : ∀ field ∈ updates, field.2.WellFormed) :
    (object (Fields.putAll fields updates)).WellFormed := by
  obtain ⟨hdistinct, hall⟩ := wellFormed_object_iff.mp h
  refine wellFormed_object_iff.mpr ⟨hdistinct.putAll updates, fun field hfield => ?_⟩
  rcases Fields.mem_of_mem_putAll hfield with hnew | hold
  · exact hu field hnew
  · exact hall field hold

/-! ## Places in a value -/

theorem wellFormed_at? (h : v.WellFormed) {path : List String} {inner : Json}
    (hat : v.at? path = some inner) : inner.WellFormed := by
  induction path generalizing v with
  | nil =>
    cases hat
    exact h
  | cons key rest ih =>
    rw [at?_cons, Option.bind_eq_some_iff] at hat
    obtain ⟨u, hget, hrest⟩ := hat
    obtain ⟨fields, rfl, hvalue⟩ := exists_fields_of_get? hget
    exact ih (wellFormed_of_value? h hvalue) hrest

theorem wellFormed_putAt (h : v.WellFormed) {new : Json} (hnew : new.WellFormed)
    (path : List String) : (putAt new path v).WellFormed := by
  induction path generalizing v with
  | nil => exact hnew
  | cons key rest ih =>
    cases hget : v.get? key with
    | none => rwa [putAt_cons_of_none hget]
    | some old =>
      obtain ⟨fields, rfl, hvalue⟩ := exists_fields_of_get? hget
      rw [putAt_cons hvalue]
      exact wellFormed_put h key (ih (wellFormed_of_value? h hvalue))

/-! ## Reading -/

namespace Reader

/-- Whatever a reader reads meets `P`. -/
def Yields {α : Type} (P : α → Prop) (read : Reader α) : Prop :=
  ∀ cs a rest, read cs = .ok (a, rest) → P a

theorem wellFormed_of_map {ε α : Type} {x : Except ε α} {f : α → Json × List Char} {v : Json}
    {rest : List Char} (h : x.map f = .ok (v, rest)) (hf : ∀ a, (f a).1.WellFormed) :
    v.WellFormed := by
  obtain ⟨a, -, hv⟩ := exists_of_map_eq_ok h
  have hwell := hf a
  rwa [hv] at hwell

theorem yields_scalar (size : Nat) : Yields WellFormed (scalar size) := by
  intro cs v rest h
  unfold scalar at h
  split at h
  · nomatch h
  · exact wellFormed_of_map h fun _ => trivial
  · exact wellFormed_of_map h fun _ => trivial
  · exact wellFormed_of_map h fun _ => trivial
  · exact wellFormed_of_map h fun _ => trivial
  · split at h
    · exact wellFormed_of_map h fun _ => trivial
    · nomatch h

variable {item : Reader Json}

theorem yields_itemsFrom (hitem : Yields WellFormed item) (fuel : Nat) :
    Yields (fun items => ∀ v ∈ items, WellFormed v) (itemsFrom item fuel) := by
  induction fuel with
  | zero => exact fun _ _ _ h => nomatch h
  | succ fuel ih =>
    intro cs items rest h
    obtain ⟨⟨v, cs'⟩, hv, h⟩ := exists_of_bind_eq_ok h
    have hfirst : v.WellFormed := hitem cs v cs' hv
    dsimp only at h
    split at h
    · cases h
      exact List.forall_mem_singleton.mpr hfirst
    · obtain ⟨⟨vs, rest'⟩, hvs, h⟩ := exists_of_bind_eq_ok h
      cases h
      exact List.forall_mem_cons.mpr ⟨hfirst, ih _ _ _ hvs⟩
    · nomatch h
    · nomatch h

theorem yields_fieldsFrom (size : Nat) (hitem : Yields WellFormed item) (fuel : Nat)
    (fields : Fields) (hfields : (object fields).WellFormed) :
    Yields (fun fields => (object fields).WellFormed) (fieldsFrom size item fuel fields) := by
  induction fuel generalizing fields with
  | zero => exact fun _ _ _ h => nomatch h
  | succ fuel ih =>
    intro cs result rest h
    rw [fieldsFrom] at h
    split at h
    · obtain ⟨⟨key, cs₁⟩, -, h⟩ := exists_of_bind_eq_ok h
      obtain ⟨⟨_, cs₂⟩, -, h⟩ := exists_of_bind_eq_ok h
      obtain ⟨⟨v, cs₃⟩, hv, h⟩ := exists_of_bind_eq_ok h
      -- a repeated key is set anew, so the keys stay distinct
      have hput := wellFormed_put hfields key (hitem _ _ _ hv)
      dsimp only at h
      split at h
      · cases h
        exact hput
      · exact ih _ hput _ _ _ h
      · nomatch h
      · nomatch h
    · nomatch h
    · nomatch h

theorem yields_arrayTail (size : Nat) (hitem : Yields WellFormed item) :
    Yields WellFormed (arrayTail size item) := by
  intro cs v rest h
  unfold arrayTail at h
  split at h
  · cases h
    trivial
  · obtain ⟨⟨items, _⟩, hitems, hv⟩ := exists_of_map_eq_ok h
    cases hv
    exact wellFormed_array_iff.mpr (yields_itemsFrom hitem _ _ _ _ hitems)

theorem yields_objectTail (size : Nat) (hitem : Yields WellFormed item) :
    Yields WellFormed (objectTail size item) := by
  have hempty : (object []).WellFormed := ⟨Fields.distinct_nil, trivial⟩
  intro cs v rest h
  unfold objectTail at h
  split at h
  · cases h
    exact hempty
  · obtain ⟨⟨fields, _⟩, hfields, hv⟩ := exists_of_map_eq_ok h
    cases hv
    exact yields_fieldsFrom size hitem _ _ hempty _ _ _ hfields

theorem yields_value (size depth : Nat) : Yields WellFormed (value size depth) := by
  induction depth with
  | zero => exact fun cs v rest h => yields_scalar size _ v rest h
  | succ depth ih =>
    intro cs v rest h
    rw [value] at h
    split at h
    · exact yields_arrayTail size ih _ _ _ h
    · exact yields_objectTail size ih _ _ _ h
    · exact yields_scalar size _ _ _ h

end Reader

/-- Whatever is read from a text is well formed. -/
theorem wellFormed_of_read? {text : String} (h : read? text = some v) : v.WellFormed := by
  unfold read? at h
  dsimp only at h
  split at h
  · split at h
    · cases h
      exact Reader.yields_value _ _ _ _ _ ‹_›
    · nomatch h
  · nomatch h

end Json

end LightBridge
