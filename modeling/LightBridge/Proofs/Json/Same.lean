import LightBridge.Proofs.Json.WellFormed

/-!
# Objects that are the same but for the order of their fields

Two objects are compared as sets of fields. While the keys of an object are distinct, which is so in
every well formed value, the object is the same as each of its rearrangements, and so are the values
around them.
-/

namespace LightBridge

namespace Fields

variable {fields fields' : Fields} {key : String} {value : Json}

/-- Objects with distinct keys and the same fields are rearrangements of each other. -/
theorem perm_of_value?_eq (h : Distinct fields) (h' : Distinct fields')
    (hvalue : ∀ key, value? fields key = value? fields' key) : fields.Perm fields' := by
  rw [List.perm_ext_iff_of_nodup (List.Nodup.of_map _ h) (List.Nodup.of_map _ h')]
  rintro ⟨key, value⟩
  rw [← value?_eq_some_iff h, ← value?_eq_some_iff h', hvalue]

theorem has_perm (h : Distinct fields) (hp : fields.Perm fields') (key : String) :
    has fields key = has fields' key := by
  rw [has, value?_perm hp h]
  rfl

theorem perm_put (h : Distinct fields) (hp : fields.Perm fields') (key : String) (value : Json) :
    (put fields key value).Perm (put fields' key value) := by
  refine perm_of_value?_eq (h.put key value) ((h.perm hp).put key value) fun other => ?_
  rw [value?_put, value?_put, value?_perm hp h]

theorem perm_remove (h : Distinct fields) (hp : fields.Perm fields') (key : String) :
    (remove fields key).Perm (remove fields' key) := by
  refine perm_of_value?_eq (h.remove key) ((h.perm hp).remove key) fun other => ?_
  rw [value?_remove h, value?_remove (h.perm hp), value?_perm hp h]

theorem perm_putAll {updates updates' : Fields} (h : Distinct fields) (hu : Distinct updates)
    (hp : updates.Perm updates') : (putAll fields updates).Perm (putAll fields updates') := by
  refine perm_of_value?_eq (h.putAll updates) (h.putAll updates') fun other => ?_
  rw [value?_putAll hu, value?_putAll (hu.perm hp), value?_perm hp hu]

end Fields

namespace Json

variable {v new new' : Json} {fields fields' : Fields} {key : String}

/-! ## Same values -/

theorem forall₂_of_mem {R S : Json → Json → Prop} {items items' : List Json}
    (h : List.Forall₂ R items items')
    (himp : ∀ item ∈ items, ∀ item' ∈ items', R item item' → S item item') :
    List.Forall₂ S items items' := by
  obtain ⟨hlength, hzip⟩ := List.forall₂_iff_zip.mp h
  refine List.forall₂_iff_zip.mpr ⟨hlength, fun hmem => ?_⟩
  obtain ⟨hitem, hitem'⟩ := List.of_mem_zip hmem
  exact himp _ hitem _ hitem' (hzip hmem)

theorem sameFields_iff :
    sameFields fields fields' = true ↔
      ∀ field ∈ fields, ∃ value, Fields.value? fields' field.1 = some value ∧
        field.2.same value = true := by
  induction fields with
  | nil => simp [sameFields]
  | cons field rest ih =>
    obtain ⟨k, v⟩ := field
    rw [sameFields, Bool.and_eq_true, ih, List.forall_mem_cons]
    cases Fields.value? fields' k <;> simp

theorem same_object_iff :
    (object fields).same (object fields') = true ↔
      fields.length = fields'.length ∧
        ∀ field ∈ fields, ∃ value, Fields.value? fields' field.1 = some value ∧
          field.2.same value = true := by
  rw [same, Bool.and_eq_true, beq_iff_eq, sameFields_iff]

theorem sameItems_iff {items items' : List Json} :
    sameItems items items' = true ↔
      List.Forall₂ (fun item item' => item.same item' = true) items items' := by
  induction items generalizing items' with
  | nil => cases items' <;> simp [sameItems]
  | cons item rest ih =>
    cases items' with
    | nil => simp [sameItems]
    | cons item' rest' => rw [sameItems, Bool.and_eq_true, ih, List.forall₂_cons]

theorem same_array_iff {items items' : List Json} :
    (array items).same (array items') = true ↔
      List.Forall₂ (fun item item' => item.same item' = true) items items' := by
  rw [same, sameItems_iff]

/-- A well formed value is the same as itself. -/
theorem same_self (v : Json) (h : v.WellFormed) : v.same v = true := by
  induction v with
  | array items ih =>
    rw [same_array_iff, List.forall₂_same]
    exact fun item hitem => ih item hitem (wellFormed_array_iff.mp h item hitem)
  | object fields ih =>
    obtain ⟨hdistinct, hall⟩ := wellFormed_object_iff.mp h
    exact same_object_iff.mpr ⟨rfl, fun field hfield =>
      ⟨field.2, (Fields.value?_eq_some_iff hdistinct).mpr hfield, ih field hfield (hall field hfield)⟩⟩
  | _ => simp [same]

/-- An object that a well formed one is the same as has the same keys. -/
theorem keys_perm_of_same (h : (object fields).WellFormed)
    (hsame : (object fields).same (object fields') = true) :
    (Fields.keys fields).Perm (Fields.keys fields') := by
  obtain ⟨hlength, hfound⟩ := same_object_iff.mp hsame
  have hsubset : Fields.keys fields ⊆ Fields.keys fields' := by
    intro key hkey
    obtain ⟨field, hfield, rfl⟩ := List.mem_map.mp hkey
    obtain ⟨value, hvalue, -⟩ := hfound field hfield
    rw [← Fields.has_eq_true_iff, Fields.has, hvalue]
    rfl
  have hsubperm := List.subperm_of_subset (wellFormed_object_iff.mp h).1 hsubset
  refine hsubperm.perm_of_length_le (Nat.le_of_eq ?_)
  rw [Fields.keys, Fields.keys, List.length_map, List.length_map, hlength]

/-- Of two well formed values that are the same, either may be named first. -/
theorem same_symm {v w : Json} (hv : v.WellFormed) (hw : w.WellFormed) (h : v.same w = true) :
    w.same v = true := by
  induction v generalizing w with
  | array items ih =>
    cases w with
    | array items' =>
      rw [same_array_iff] at h ⊢
      refine List.Forall₂.flip (forall₂_of_mem h fun item hitem item' hitem' hsame => ?_)
      exact ih item hitem (wellFormed_array_iff.mp hv item hitem)
        (wellFormed_array_iff.mp hw item' hitem') hsame
    | _ => simp [same] at h
  | object fields ih =>
    cases w with
    | object fields' =>
      obtain ⟨hlength, hfound⟩ := same_object_iff.mp h
      refine same_object_iff.mpr ⟨hlength.symm, fun field' hfield' => ?_⟩
      -- the other object has the key of this field, and under it a value that was found here
      have hkey : field'.1 ∈ Fields.keys fields :=
        (keys_perm_of_same hv h).mem_iff.mpr (List.mem_map_of_mem hfield')
      obtain ⟨field, hfield, hname⟩ := List.mem_map.mp hkey
      obtain ⟨value, hvalue, hsame⟩ := hfound field hfield
      obtain ⟨hdistinct, hall⟩ := wellFormed_object_iff.mp hv
      obtain ⟨hdistinct', hall'⟩ := wellFormed_object_iff.mp hw
      have hsecond : value = field'.2 := by
        rw [hname, (Fields.value?_eq_some_iff hdistinct').mpr hfield'] at hvalue
        exact (Option.some.inj hvalue).symm
      refine ⟨field.2, ?_, ?_⟩
      · rw [← hname]
        exact (Fields.value?_eq_some_iff hdistinct).mpr hfield
      · rw [hsecond] at hsame
        exact ih field hfield (hall field hfield) (hall' field' hfield') hsame
    | _ => simp [same] at h
  | number a =>
    cases w with
    | number b =>
      rw [same] at h ⊢
      rwa [Number.same_comm]
    | _ => simp [same] at h
  | _ => cases w <;> simp_all [same]

/-- An object is the same as its rearrangements. -/
theorem same_of_perm (h : (object fields).WellFormed) (hp : fields.Perm fields') :
    (object fields).same (object fields') = true := by
  obtain ⟨hdistinct, hall⟩ := wellFormed_object_iff.mp h
  refine same_object_iff.mpr ⟨hp.length_eq, fun field hfield => ⟨field.2, ?_, ?_⟩⟩
  · rw [Fields.value?_eq_some_iff (hdistinct.perm hp)]
    exact hp.mem_iff.mp hfield
  · exact same_self _ (hall field hfield)

/-- What is the same inside is the same as a whole. -/
theorem same_putAt (h : v.WellFormed) (hnew : new.same new' = true) (path : List String) :
    (putAt new path v).same (putAt new' path v) = true := by
  induction path generalizing v with
  | nil => exact hnew
  | cons key rest ih =>
    cases hget : v.get? key with
    | none =>
      rw [putAt_cons_of_none hget, putAt_cons_of_none hget]
      exact same_self v h
    | some old =>
      obtain ⟨fields, rfl, hvalue⟩ := exists_fields_of_get? hget
      obtain ⟨hdistinct, hall⟩ := wellFormed_object_iff.mp h
      have hinner := ih (wellFormed_of_value? h hvalue)
      rw [putAt_cons hvalue, putAt_cons hvalue, same_object_iff]
      have hlength : ∀ value, (Fields.put fields key value).length = fields.length := by
        intro value
        have hkey : key ∈ Fields.keys fields := by
          rw [← Fields.has_eq_true_iff, Fields.has, hvalue]
          rfl
        have hkeys := congrArg List.length (Fields.keys_put fields key value)
        rwa [if_pos hkey, Fields.keys, Fields.keys, List.length_map, List.length_map] at hkeys
      refine ⟨by rw [hlength, hlength], fun field hfield => ?_⟩
      obtain ⟨k, u⟩ := field
      have hput := (Fields.value?_eq_some_iff (hdistinct.put key _)).mpr hfield
      rw [Fields.value?_put] at hput ⊢
      -- the field that leads on has what is put inside, and the others stay
      by_cases hk : k = key
      · rw [if_pos hk] at hput ⊢
        cases hput
        exact ⟨_, rfl, hinner⟩
      · rw [if_neg hk] at hput ⊢
        exact ⟨u, hput, same_self u (wellFormed_of_value? h hput)⟩

end Json

end LightBridge
