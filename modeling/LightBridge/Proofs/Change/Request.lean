import LightBridge.Change.Pending
import LightBridge.Proofs.Fields

/-!
# Requests that setters build

The keys of a request are distinct, and each field is one that a setter writes. What a request asks
for is what was asked for last, field by field.
-/

namespace LightBridge

open Fields (Distinct value?_putAll value?_remove)

namespace Setter

theorem distinct_apply (s : Setter) {request : Fields} (h : Distinct request) :
    Distinct (s.apply request) := by
  cases s with
  | transition tenths =>
    show Distinct (if tenths = defaultTransition then _ else _)
    by_cases hdefault : tenths = defaultTransition
    · rw [if_pos hdefault]
      exact h.remove transitionKey
    · rw [if_neg hdefault]
      exact h.put transitionKey (word tenths)
  | _ => exact h.putAll _

theorem distinct_applyAll (setters : List Setter) {request : Fields} (h : Distinct request) :
    Distinct (applyAll setters request) := by
  induction setters generalizing request with
  | nil => exact h
  | cons s rest ih => exact ih (distinct_apply s h)

theorem distinct_fields (s : Setter) : Distinct s.fields := by
  cases s with
  | transition tenths =>
    show Distinct (if tenths = defaultTransition then _ else _)
    split
    · exact Fields.distinct_nil
    · exact List.nodup_singleton _
  | _ => simp [Distinct, Fields.keys, fields]

/-! ## What was asked for last -/

/-- The value that several setters ask for in a field: the last one counts. -/
def lastValue? (setters : List Setter) (key : String) : Option Json :=
  (setters.filterMap fun s => Fields.value? s.fields key).getLast?

/-- Of several choices the last one counts. -/
theorem getLast?_filterMap_cons {α β : Type} (f : α → Option β) (a : α) (rest : List α) :
    ((a :: rest).filterMap f).getLast? = (rest.filterMap f).getLast?.or (f a) := by
  cases h : f a with
  | none => simp only [List.filterMap_cons, h, Option.or_none]
  | some b =>
    simp only [List.filterMap_cons, h, List.getLast?_cons]
    cases (rest.filterMap f).getLast? <;> rfl

/-- What a setter does to a field, if anything: it gives it a value, or takes it out. -/
def touches? (s : Setter) (key : String) : Option (Option Json) :=
  match s with
  | .transition tenths =>
    if key = transitionKey then
      some (if tenths = defaultTransition then none else some (word tenths))
    else none
  | s => (Fields.value? s.fields key).map some

/-- What several setters do to a field: the last one that touches it decides. -/
def lastTouch? (setters : List Setter) (key : String) : Option (Option Json) :=
  (setters.filterMap (touches? · key)).getLast?

/-- The value that several setters leave a field with, if there was none before. -/
def final? (setters : List Setter) (key : String) : Option Json := (lastTouch? setters key).join

theorem value?_apply (s : Setter) {request : Fields} (h : Distinct request) (key : String) :
    Fields.value? (s.apply request) key =
      (s.touches? key).getD (Fields.value? request key) := by
  have hwritten (s : Setter) :
      Fields.value? (Fields.putAll request s.fields) key =
        ((Fields.value? s.fields key).map some).getD (Fields.value? request key) := by
    rw [value?_putAll (distinct_fields s)]
    cases Fields.value? s.fields key <;> rfl
  cases s with
  | transition tenths =>
    show Fields.value? (if tenths = defaultTransition then _ else _) key =
      (if key = transitionKey then some (if tenths = defaultTransition then none else _)
        else none).getD _
    by_cases hdefault : tenths = defaultTransition
    · rw [if_pos hdefault, if_pos hdefault, value?_remove h]
      split <;> rfl
    · rw [if_neg hdefault, if_neg hdefault, Fields.value?_put]
      split <;> rfl
  | _ => exact hwritten _

theorem value?_applyAll_eq_getD (setters : List Setter) {request : Fields} (h : Distinct request)
    (key : String) :
    Fields.value? (applyAll setters request) key =
      (lastTouch? setters key).getD (Fields.value? request key) := by
  induction setters generalizing request with
  | nil => rfl
  | cons s rest ih =>
    have hlast : lastTouch? (s :: rest) key = (lastTouch? rest key).or (s.touches? key) :=
      getLast?_filterMap_cons (fun s : Setter => s.touches? key) s rest
    show Fields.value? (applyAll rest (s.apply request)) key = _
    rw [ih (distinct_apply s h), value?_apply s h, hlast]
    cases lastTouch? rest key <;> rfl

/-- No setter but that of the transition time takes a field out. -/
theorem touches?_of_ne (s : Setter) {key : String} (hkey : key ≠ transitionKey) :
    s.touches? key = (Fields.value? s.fields key).map some := by
  cases s with
  | transition tenths =>
    have hnone : Fields.value? (transition tenths).fields key = none := by
      show Fields.value? (if tenths = defaultTransition then _ else _) key = none
      split
      · rfl
      · rw [Fields.value?_cons, if_neg (Ne.symm hkey)]
        rfl
    rw [hnone]
    exact if_neg hkey
  | _ => rfl

theorem lastTouch?_of_ne (setters : List Setter) {key : String} (hkey : key ≠ transitionKey) :
    lastTouch? setters key = (lastValue? setters key).map some := by
  unfold lastTouch? lastValue?
  rw [← List.getLast?_map, List.map_filterMap]
  simp only [touches?_of_ne _ hkey]

/-- Every field but the transition time has the value that it was given last. -/
theorem value?_applyAll (setters : List Setter) {request : Fields} (h : Distinct request)
    {key : String} (hkey : key ≠ transitionKey) :
    Fields.value? (applyAll setters request) key =
      (lastValue? setters key).or (Fields.value? request key) := by
  rw [value?_applyAll_eq_getD setters h, lastTouch?_of_ne setters hkey]
  cases lastValue? setters key <;> rfl

/-- Setters build a request with the values that they leave. -/
theorem value?_applyAll_nil (setters : List Setter) (key : String) :
    Fields.value? (applyAll setters []) key = final? setters key := by
  rw [value?_applyAll_eq_getD setters Fields.distinct_nil, final?]
  cases lastTouch? setters key <;> rfl

/-- The power that a setter asks for. -/
def power? : Setter → Option Bool
  | .on value => some value
  | _ => none

/-- The power that several setters ask for: the last one counts. -/
def lastPower? (setters : List Setter) : Option Bool := (setters.filterMap power?).getLast?

theorem value?_fields_on (s : Setter) :
    Fields.value? s.fields "on" = s.power?.map Json.bool := by
  cases s with
  | transition tenths =>
    show Fields.value? (if tenths = defaultTransition then _ else _) "on" = _
    split <;> rfl
  | _ => rfl

theorem lastValue?_on (setters : List Setter) :
    lastValue? setters "on" = (lastPower? setters).map Json.bool := by
  unfold lastValue? lastPower?
  rw [← List.getLast?_map, List.map_filterMap]
  simp only [value?_fields_on]

theorem value?_applyAll_on (setters : List Setter) {request : Fields} (h : Distinct request) :
    Fields.value? (applyAll setters request) "on" =
      ((lastPower? setters).map Json.bool).or (Fields.value? request "on") := by
  have hkey : "on" ≠ transitionKey := by decide
  rw [value?_applyAll setters h hkey, lastValue?_on]

/-! ## Fields that setters write -/

/-- A request as setters, and trimming in between, leave it behind. -/
structure Built (request : Fields) : Prop where
  distinct : Distinct request
  written : ∀ field ∈ request, ∃ s : Setter, field ∈ s.fields

theorem built_nil : Built [] := ⟨Fields.distinct_nil, by simp⟩

/-- A field of a request is new, or it was there before. -/
theorem mem_of_mem_apply {s : Setter} {request : Fields} (h : Distinct request)
    {field : String × Json} (hfield : field ∈ s.apply request) :
    field ∈ s.fields ∨ field ∈ request := by
  cases s with
  | transition tenths =>
    change field ∈ (if tenths = defaultTransition then _ else _) at hfield
    show field ∈ (if tenths = defaultTransition then _ else _) ∨ _
    by_cases hdefault : tenths = defaultTransition
    · rw [if_pos hdefault, Fields.mem_remove_iff h] at hfield
      exact .inr hfield.1
    · rw [if_neg hdefault] at hfield ⊢
      rcases Fields.mem_of_mem_put hfield with rfl | hold
      · exact .inl (List.mem_singleton_self _)
      · exact .inr hold
  | _ => exact Fields.mem_of_mem_putAll hfield

theorem mem_of_mem_applyAll {setters : List Setter} {request : Fields} (h : Distinct request)
    {field : String × Json} (hfield : field ∈ applyAll setters request) :
    (∃ s ∈ setters, field ∈ s.fields) ∨ field ∈ request := by
  induction setters generalizing request with
  | nil => exact .inr hfield
  | cons s rest ih =>
    rcases ih (distinct_apply s h) hfield with ⟨s', hs', hnew⟩ | hold
    · exact .inl ⟨s', List.mem_cons_of_mem s hs', hnew⟩
    · rcases mem_of_mem_apply h hold with hnew | hold
      · exact .inl ⟨s, List.mem_cons_self, hnew⟩
      · exact .inr hold

theorem Built.apply {request : Fields} (h : Built request) (s : Setter) :
    Built (s.apply request) := by
  refine ⟨distinct_apply s h.distinct, fun field hfield => ?_⟩
  rcases mem_of_mem_apply h.distinct hfield with hnew | hold
  · exact ⟨s, hnew⟩
  · exact h.written field hold

theorem Built.applyAll {request : Fields} (h : Built request) (setters : List Setter) :
    Built (applyAll setters request) := by
  induction setters generalizing request with
  | nil => exact h
  | cons s rest ih => exact ih (h.apply s)

/-- Fewer fields are still fields that setters write. -/
theorem Built.of_subset {request fewer : Fields} (h : Built request) (hdistinct : Distinct fewer)
    (hsubset : ∀ field ∈ fewer, field ∈ request) : Built fewer :=
  ⟨hdistinct, fun field hfield => h.written field (hsubset field hfield)⟩

theorem wellFormed_ofExtended (x : Double.Extended) : (Json.ofExtended x).WellFormed := by
  cases x <;> simp [Json.ofExtended, Json.WellFormed]

theorem wellFormed_of_written (s : Setter) {field : String × Json} (h : field ∈ s.fields) :
    field.2.WellFormed := by
  cases s with
  | transition tenths =>
    change field ∈ (if tenths = defaultTransition then _ else _) at h
    split at h
    · cases h
    · rw [List.mem_singleton.mp h]
      trivial
  | hueSaturation hue saturation =>
    simp only [fields, List.mem_cons, List.not_mem_nil, or_false] at h
    rcases h with rfl | rfl <;> trivial
  | xy | xyBy =>
    rw [List.mem_singleton.mp h]
    exact ⟨wellFormed_ofExtended _, wellFormed_ofExtended _, trivial⟩
  | _ =>
    rw [List.mem_singleton.mp h]
    trivial

theorem Built.exists_bool {request : Fields} (h : Built request) {v : Json}
    (hon : Fields.value? request "on" = some v) : ∃ b, v = .bool b := by
  obtain ⟨s, hs⟩ := h.written _ ((Fields.value?_eq_some_iff h.distinct).mp hon)
  have hvalue := (Fields.value?_eq_some_iff (distinct_fields s)).mpr hs
  rw [value?_fields_on, Option.map_eq_some_iff] at hvalue
  obtain ⟨b, -, hb⟩ := hvalue
  exact ⟨b, hb.symm⟩

end Setter

namespace Change

/-- The change with further settings. -/
def setAll (c : Change) (setters : List Setter) : Change := setters.foldl set c

theorem setAll_eq (c : Change) (setters : List Setter) :
    c.setAll setters = { c with request := Setter.applyAll setters c.request } := by
  induction setters generalizing c with
  | nil => rfl
  | cons s rest ih => exact ih (c.set s)

@[simp] theorem channel_setAll (c : Change) (setters : List Setter) :
    (c.setAll setters).channel = c.channel := by
  rw [setAll_eq]

@[simp] theorem path_setAll (c : Change) (setters : List Setter) :
    (c.setAll setters).path = c.path := by
  rw [setAll_eq]

@[simp] theorem cache_setAll (c : Change) (setters : List Setter) :
    (c.setAll setters).cache = c.cache := by
  rw [setAll_eq]

@[simp] theorem baseline_setAll (c : Change) (setters : List Setter) :
    (c.setAll setters).baseline = c.baseline := by
  rw [setAll_eq]

@[simp] theorem request_setAll (c : Change) (setters : List Setter) :
    (c.setAll setters).request = Setter.applyAll setters c.request := by
  rw [setAll_eq]

theorem built_setAll {c : Change} (setters : List Setter) (hnew : c.request = []) :
    Setter.Built (c.setAll setters).request := by
  rw [request_setAll, hnew]
  exact Setter.built_nil.applyAll setters

end Change

end LightBridge
