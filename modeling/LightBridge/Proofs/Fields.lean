import LightBridge.Json.Basic
import Mathlib.Data.List.Nodup
import Mathlib.Data.List.Perm.Basic

/-!
# Fields of an object

While the keys of an object are distinct, a field is what its members say, in whatever order they
stand. Removing a field moves the last one into its place, and changes nothing else.
-/

namespace LightBridge.Fields

variable {fields before between later : Fields} {key other : String} {value : Json}
  {last : String × Json}

theorem mem_of_value? (h : value? fields key = some value) : (key, value) ∈ fields := by
  induction fields with
  | nil => cases h
  | cons field rest ih =>
    obtain ⟨k, v⟩ := field
    rw [value?_cons] at h
    by_cases hkey : k = key
    · rw [if_pos hkey] at h
      cases h
      exact hkey ▸ List.mem_cons_self
    · rw [if_neg hkey] at h
      exact List.mem_cons_of_mem _ (ih h)

/-- A key that comes with one value only has that value. -/
theorem value?_of_forall (hmem : (key, value) ∈ fields)
    (hall : ∀ other, (key, other) ∈ fields → other = value) : value? fields key = some value := by
  cases hfound : value? fields key with
  | none =>
    have hnot := (value?_eq_none_iff fields key).mp hfound
    exact absurd (List.mem_map.mpr ⟨_, hmem, rfl⟩) hnot
  | some other => rw [hall other (mem_of_value? hfound)]

theorem value?_eq_some_iff (h : Distinct fields) :
    value? fields key = some value ↔ (key, value) ∈ fields := by
  refine ⟨mem_of_value?, fun hmem => value?_of_forall hmem fun other hother => ?_⟩
  have hsame := List.inj_on_of_nodup_map h hother hmem rfl
  exact congrArg Prod.snd hsame

theorem value?_append (fields others : Fields) (key : String) :
    value? (fields ++ others) key = (value? fields key).or (value? others key) := by
  induction fields with
  | nil => rfl
  | cons field rest ih =>
    obtain ⟨k, v⟩ := field
    rw [List.cons_append, value?_cons, value?_cons, ih]
    split <;> rfl

theorem distinct_nil : Distinct [] := List.nodup_nil

theorem Distinct.filter (h : Distinct fields) (p : String × Json → Bool) :
    Distinct (fields.filter p) :=
  List.Nodup.sublist (List.filter_sublist.map _) h

theorem value?_filter (h : Distinct fields) (p : String × Json → Bool) (key : String) :
    value? (fields.filter p) key = (value? fields key).filter fun v => p (key, v) := by
  ext v
  rw [value?_eq_some_iff (h.filter p), List.mem_filter, Option.filter_eq_some_iff,
    value?_eq_some_iff h]

theorem Distinct.perm {fields' : Fields} (hp : fields.Perm fields') (h : Distinct fields) :
    Distinct fields' :=
  (hp.map _).nodup_iff.mp h

theorem value?_perm {fields' : Fields} (hp : fields.Perm fields') (h : Distinct fields)
    (key : String) : value? fields key = value? fields' key := by
  ext v
  rw [value?_eq_some_iff h, value?_eq_some_iff (h.perm hp), hp.mem_iff]

theorem has_eq_false_iff : has fields key = false ↔ key ∉ keys fields := by
  rw [← value?_eq_none_iff, has, Option.isSome_eq_false_iff, Option.isNone_iff_eq_none]

theorem has_eq_true_iff : has fields key = true ↔ key ∈ keys fields := by
  rw [← not_iff_not, Bool.not_eq_true, has_eq_false_iff]

theorem filter_ne_of_not_mem (h : key ∉ keys fields) :
    (fields.filter fun field => field.1 ≠ key) = fields := by
  rw [List.filter_eq_self]
  intro field hfield
  simp only [decide_not, Bool.not_eq_eq_eq_not, Bool.not_true, decide_eq_false_iff_not]
  rintro rfl
  exact h (List.mem_map.mpr ⟨field, hfield, rfl⟩)

theorem replace_of_not_mem (h : key ∉ keys fields) (field : String × Json) :
    (fields.map fun f => if f.1 = key then field else f) = fields := by
  have hsame : ∀ f ∈ fields, (if f.1 = key then field else f) = id f := by
    intro f hf
    rw [if_neg, id]
    rintro rfl
    exact h (List.mem_map.mpr ⟨f, hf, rfl⟩)
  rw [List.map_congr_left hsame, List.map_id]

theorem Distinct.of_sublist {fewer : Fields} (h : Distinct fields) (hsub : fewer.Sublist fields) :
    Distinct fewer :=
  List.Nodup.sublist (hsub.map _) h

/-- No other field has the key of a field. -/
theorem not_mem_keys_of_distinct (h : Distinct (before ++ (key, value) :: later)) :
    key ∉ keys before ∧ key ∉ keys later := by
  rw [Distinct, keys, List.map_append, List.map_cons, List.nodup_middle, List.nodup_cons,
    List.mem_append, not_or] at h
  exact h.1

/-! ## Taking a field out -/

theorem remove_of_not_mem (h : key ∉ keys fields) : remove fields key = fields := by
  rcases List.eq_nil_or_concat fields with rfl | ⟨init, last, rfl⟩
  · rfl
  rw [List.concat_eq_append] at h ⊢
  rw [keys, List.map_append, List.mem_append, not_or] at h
  have hlast : last.1 ≠ key := fun hkey => h.2 (by simp [hkey])
  simp only [remove, List.getLast?_concat, List.dropLast_concat]
  rw [if_neg hlast, has_eq_false_iff.mpr h.1, if_neg Bool.false_ne_true]

/-- Without the last field, the others stay where they are. -/
theorem remove_last (before : Fields) (key : String) (value : Json) :
    remove (before ++ [(key, value)]) key = before := by
  simp only [remove, List.getLast?_concat, List.dropLast_concat, if_true]

/-- The last field moves into the gap, before all that stood between. -/
theorem remove_middle (h : Distinct (before ++ (key, value) :: (between ++ [last]))) :
    remove (before ++ (key, value) :: (between ++ [last])) key = before ++ last :: between := by
  obtain ⟨hbefore, hlater⟩ := not_mem_keys_of_distinct h
  rw [keys, List.map_append, List.mem_append, not_or] at hlater
  have hlast : last.1 ≠ key := fun hkey => hlater.2 (by simp [hkey])
  have hhas : has (before ++ (key, value) :: between) key = true :=
    has_eq_true_iff.mpr (by simp [keys])
  rw [← List.cons_append, ← List.append_assoc]
  simp only [remove, List.getLast?_concat, List.dropLast_concat]
  rw [if_neg hlast, if_pos hhas, List.map_append, List.map_cons, replace_of_not_mem hbefore,
    replace_of_not_mem hlater.1, if_pos rfl]

/-- Up to order, removing a field filters it out. -/
theorem remove_perm (h : Distinct fields) (key : String) :
    (remove fields key).Perm (fields.filter fun field => field.1 ≠ key) := by
  by_cases hmem : key ∈ keys fields
  · obtain ⟨⟨k, v⟩, hfield, rfl⟩ := List.mem_map.mp hmem
    obtain ⟨before, later, rfl⟩ := List.append_of_mem hfield
    obtain ⟨hbefore, hlater⟩ := not_mem_keys_of_distinct h
    have hfilter : (before ++ (k, v) :: later).filter (fun field => field.1 ≠ k) =
        before ++ later := by
      rw [List.filter_append, List.filter_cons, filter_ne_of_not_mem hbefore,
        filter_ne_of_not_mem hlater]
      simp
    rw [hfilter]
    -- the last field takes the place of the removed one, so it is set apart
    rcases List.eq_nil_or_concat later with rfl | ⟨between, last, rfl⟩
    · rw [remove_last, List.append_nil]
    · rw [List.concat_eq_append] at h ⊢
      rw [remove_middle h]
      exact (List.perm_append_singleton last between).symm.append_left before
  · rw [remove_of_not_mem hmem, filter_ne_of_not_mem hmem]

/-- Two fields stand in one order only. -/
theorem not_sublist_swap (h : Distinct fields) {first second : String × Json}
    (hsub : [first, second].Sublist fields) : ¬ [second, first].Sublist fields := by
  induction fields with
  | nil => cases hsub
  | cons field rest ih =>
    obtain ⟨hfield, -⟩ := List.nodup_cons.mp (List.Nodup.of_map _ h)
    have hrest : Distinct rest := h.of_sublist (List.sublist_cons_self field rest)
    intro hswap
    rw [List.cons_sublist_cons'] at hsub hswap
    rcases hsub with hsub | ⟨rfl, hsecond⟩
    · rcases hswap with hswap | ⟨rfl, -⟩
      · exact ih hrest hsub hswap
      · exact hfield (hsub.subset (by simp))
    · rcases hswap with hswap | ⟨rfl, hfirst⟩
      · exact hfield (hswap.subset (by simp))
      · exact hfield (hfirst.subset (by simp))

/-- Among fields in a known order, removing one keeps that order exactly if at most one field
follows it. -/
theorem remove_sublist_iff {ordered : Fields} (h : Distinct ordered)
    (hsub : (before ++ (key, value) :: later).Sublist ordered) :
    (remove (before ++ (key, value) :: later) key).Sublist ordered ↔ later.length ≤ 1 := by
  have hdistinct := h.of_sublist hsub
  rcases List.eq_nil_or_concat later with rfl | ⟨between, last, rfl⟩
  · rw [remove_last]
    have hbefore : before.Sublist (before ++ [(key, value)]) := List.sublist_append_left _ _
    exact iff_of_true (hbefore.trans hsub) (Nat.zero_le 1)
  rw [List.concat_eq_append] at hsub hdistinct ⊢
  rw [remove_middle hdistinct]
  cases between with
  | nil =>
    have hrest : (before ++ [last]).Sublist (before ++ [(key, value), last]) :=
      (List.sublist_cons_self _ _).append_left before
    exact iff_of_true (hrest.trans hsub) (Nat.le_refl 1)
  | cons next rest =>
    -- the last field has moved before the next one
    refine iff_of_false (fun hmoved => ?_) (by simp)
    have hswapped : [last, next].Sublist (before ++ last :: next :: rest) :=
      (((List.nil_sublist rest).cons_cons next).cons_cons last).trans
        (List.sublist_append_right _ _)
    have hinOrder : [next, last].Sublist (before ++ (key, value) :: (next :: rest ++ [last])) :=
      (((List.sublist_append_right rest [last]).cons_cons next).cons (key, value)).trans
        (List.sublist_append_right _ _)
    exact not_sublist_swap h (hinOrder.trans hsub) (hswapped.trans hmoved)

theorem Distinct.remove (h : Distinct fields) (key : String) : Distinct (remove fields key) :=
  (h.filter _).perm (remove_perm h key).symm

theorem value?_remove (h : Distinct fields) (key other : String) :
    value? (Fields.remove fields key) other =
      if other = key then none else value? fields other := by
  rw [value?_perm (remove_perm h key) (h.remove key), value?_filter h]
  by_cases hkey : other = key
  · rw [if_pos hkey]
    simp [hkey]
  · rw [if_neg hkey]
    cases value? fields other <;> simp [hkey]

theorem not_mem_keys_remove (h : Distinct fields) (key : String) :
    key ∉ keys (remove fields key) := by
  rw [← value?_eq_none_iff, value?_remove h, if_pos rfl]

theorem Distinct.remove_append (h : Distinct (fields ++ later)) (key : String) :
    Distinct (Fields.remove fields key ++ later) := by
  have hperm := remove_perm (h.of_sublist (List.sublist_append_left _ _)) key
  have hfilter : Distinct (fields.filter (fun field => field.1 ≠ key) ++ later) :=
    h.of_sublist (List.filter_sublist.append_right later)
  exact hfilter.perm (hperm.symm.append_right later)

theorem Distinct.putAll (h : Distinct fields) (updates : Fields) :
    Distinct (putAll fields updates) := by
  induction updates generalizing fields with
  | nil => exact h
  | cons field rest ih => exact ih (h.put field.1 field.2)

/-- Setting several fields: what is among them is set, and the rest is left alone. -/
theorem value?_putAll {updates : Fields} (h : Distinct updates) (fields : Fields) (key : String) :
    value? (putAll fields updates) key = (value? updates key).or (value? fields key) := by
  induction updates generalizing fields with
  | nil => rfl
  | cons field rest ih =>
    obtain ⟨k, v⟩ := field
    obtain ⟨hk, hrest⟩ := List.nodup_cons.mp h
    have hnone : value? rest k = none := (value?_eq_none_iff rest k).mpr hk
    show value? (putAll (put fields k v) rest) key = _
    rw [ih hrest, value?_put, value?_cons]
    by_cases hkey : key = k
    · -- no later field has the key, so this one decides
      subst hkey
      rw [hnone, if_pos rfl, if_pos rfl]
      rfl
    · rw [if_neg hkey, if_neg (Ne.symm hkey)]

theorem put_of_not_mem (h : key ∉ keys fields) (value : Json) :
    put fields key value = fields ++ [(key, value)] := by
  induction fields with
  | nil => rfl
  | cons field rest ih =>
    obtain ⟨k, v⟩ := field
    rw [keys, List.map_cons, List.mem_cons, not_or] at h
    rw [put, if_neg (Ne.symm h.1), ih h.2]
    rfl

theorem putAll_of_distinct {updates : Fields} (h : Distinct (fields ++ updates)) :
    putAll fields updates = fields ++ updates := by
  induction updates generalizing fields with
  | nil => exact (List.append_nil fields).symm
  | cons field rest ih =>
    obtain ⟨hnew, -⟩ := not_mem_keys_of_distinct h
    rw [List.append_cons] at h ⊢
    show putAll (put fields field.1 field.2) rest = _
    rw [put_of_not_mem hnew]
    exact ih h

theorem mem_of_mem_put {field : String × Json} (h : field ∈ put fields key value) :
    field = (key, value) ∨ field ∈ fields := by
  induction fields with
  | nil => exact .inl (List.mem_singleton.mp h)
  | cons first rest ih =>
    obtain ⟨k, v⟩ := first
    rw [put] at h
    split at h
    · rcases List.mem_cons.mp h with rfl | hrest
      · exact .inl rfl
      · exact .inr (List.mem_cons_of_mem _ hrest)
    · rcases List.mem_cons.mp h with rfl | hrest
      · exact .inr List.mem_cons_self
      · exact (ih hrest).imp_right (List.mem_cons_of_mem _)

theorem mem_of_mem_putAll {updates : Fields} {field : String × Json}
    (h : field ∈ putAll fields updates) : field ∈ updates ∨ field ∈ fields := by
  induction updates generalizing fields with
  | nil => exact .inr h
  | cons first rest ih =>
    rcases ih h with hrest | hput
    · exact .inl (List.mem_cons_of_mem first hrest)
    · rcases mem_of_mem_put hput with rfl | hfields
      · exact .inl List.mem_cons_self
      · exact .inr hfields

theorem mem_remove_iff (h : Distinct fields) {field : String × Json} :
    field ∈ remove fields key ↔ field ∈ fields ∧ field.1 ≠ key := by
  rw [(remove_perm h key).mem_iff, List.mem_filter, decide_eq_true_iff]

end LightBridge.Fields
