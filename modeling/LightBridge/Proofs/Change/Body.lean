import LightBridge.Proofs.Change.Difference
import LightBridge.Proofs.Json.Agrees

/-!
# The body of a commit, field by field

What was asked for in a field is in the body as it was asked for, unless it is left out, and then
the body does not have the field. The power setting alone can be in the body without being asked
for, or the other way round.
-/

namespace LightBridge.Change

open Setter (Built lastValue? transitionKey)

variable {known request : Fields} {key : String} {v : Json}

/-! ## What agrees with itself -/

/-- Whatever a setter writes agrees with itself. -/
theorem agrees_self_of_written (s : Setter) (hfield : (key, v) ∈ s.fields) :
    v.agrees v = true :=
  v.agrees_self (Setter.wellFormed_of_written s hfield)

theorem agrees_self_of_lastValue? {setters : List Setter}
    (hlast : lastValue? setters key = some v) : v.agrees v = true := by
  have hmem := List.mem_of_getLast? hlast
  obtain ⟨s, -, hs⟩ := List.mem_filterMap.mp hmem
  have hfield := (Fields.value?_eq_some_iff (Setter.distinct_fields s)).mp hs
  exact agrees_self_of_written s hfield

/-! ## What is left out -/

/-- Whether a field other than the power setting is left out does not depend on the others. -/
theorem leftOut_iff_met (hkey : key ≠ "on") :
    LeftOut known request (key, v) ↔ Met known (key, v) := by
  simp [LeftOut, hkey]

theorem value?_trimFields_eq_some_iff (h : Fields.Distinct request) (hkey : key ≠ "on") :
    Fields.value? (trimFields known request) key = some v ↔
      Fields.value? request key = some v ∧ ¬ Met known (key, v) := by
  rw [Fields.value?_eq_some_iff (distinct_trimFields known h),
    mem_trimFields_of_ne h hkey, Fields.value?_eq_some_iff h]

theorem agrees_of_leftOut (h : LeftOut known request (key, v)) (hself : v.agrees v = true) :
    Agrees known (key, v) := by
  rcases h with (⟨-, hagrees⟩ | ⟨-, hagrees, -⟩) | ⟨hkey, hpower⟩
  · exact hagrees
  · exact hagrees
  · refine ⟨v, ?_, hself⟩
    rw [show key = "on" from hkey]
    exact hpower.unchanged

theorem value?_withPower_of_ne (hkey : key ≠ "on") (known fields : Fields) :
    Fields.value? (withPower known fields) key = Fields.value? fields key := by
  unfold withPower
  cases impliedPower? known fields with
  | none => rfl
  | some power => exact Fields.value?_put_of_ne _ _ hkey

/-- A field that is not left out is written as it was asked for. -/
theorem value?_body_of_sent {c : Change} {body : Fields} (hbuilt : Built c.request)
    (hbody : c.body? = some body) (hasked : Fields.value? c.request key = some v)
    (hsent : ¬ LeftOut c.baseline c.request (key, v)) : Fields.value? body key = some v := by
  have hdifference : Difference c.baseline c.request (trimFields c.baseline c.request) :=
    difference_trimFields hbuilt
  have hfield : (key, v) ∈ trimFields c.baseline c.request :=
    (hdifference.mem_iff _).mpr ⟨(Fields.value?_eq_some_iff hbuilt.distinct).mp hasked, hsent⟩
  have hvalue := (Fields.value?_eq_some_iff hdifference.distinct).mpr hfield
  rw [eq_withPower_of_body? hbody]
  by_cases hkey : key = "on"
  · subst hkey
    have hhas : Fields.has (trimFields c.baseline c.request) "on" = true := by
      rw [Fields.has, hvalue]
      rfl
    rw [withPower, impliedPower?_of_has hhas]
    exact hvalue
  · rw [value?_withPower_of_ne hkey, hvalue]

/-- A field that is left out is not written, unless it is an overruled power setting. -/
theorem value?_body_of_leftOut {c : Change} {body : Fields} (hbuilt : Built c.request)
    (hbody : c.body? = some body) (hasked : Fields.value? c.request key = some v)
    (hout : LeftOut c.baseline c.request (key, v))
    (hnot : key = "on" → ∀ b, v = .bool b → ¬ Overruled c.baseline c.request b) :
    Fields.value? body key = none := by
  rw [eq_withPower_of_body? hbody]
  by_cases hkey : key = "on"
  · subst hkey
    obtain ⟨b, rfl⟩ := hbuilt.exists_bool hasked
    have hpower : PowerMet c.baseline c.request (.bool b) := by
      rcases hout with hmet | ⟨-, hpower⟩
      · exact absurd hmet (not_met_on _)
      · exact hpower
    have hs : Satisfied c.baseline c.request b := satisfied_iff.mpr hpower
    have himplies : ¬ implies (unmet c.baseline c.request) (!b) = true :=
      fun hopposed => hnot rfl b rfl ⟨hs, hopposed⟩
    rw [power_of_satisfied hbuilt.distinct hasked hs]
    exact if_neg himplies
  · rw [value?_withPower_of_ne hkey]
    cases hvalue : Fields.value? (trimFields c.baseline c.request) key with
    | none => rfl
    | some v' =>
      obtain ⟨hsame, hnot⟩ := (value?_trimFields_eq_some_iff hbuilt.distinct hkey).mp hvalue
      cases hasked.symm.trans hsame
      exact absurd ((leftOut_iff_met hkey).mp hout) hnot

theorem leftOut_of_idle {c : Change} (hbuilt : Built c.request) (hbody : c.body? = none)
    (hkey : key ≠ Setter.transitionKey) (hasked : Fields.value? c.request key = some v) :
    LeftOut c.baseline c.request (key, v) := by
  have hdifference : Difference c.baseline c.request (trimFields c.baseline c.request) :=
    difference_trimFields hbuilt
  have hidle : isIdle (trimFields c.baseline c.request) = true := by
    unfold body? at hbody
    dsimp only at hbody
    split at hbody
    · assumption
    · nomatch hbody
  by_contra hsent
  have hfield : (key, v) ∈ trimFields c.baseline c.request :=
    (hdifference.mem_iff _).mpr ⟨(Fields.value?_eq_some_iff hbuilt.distinct).mp hasked, hsent⟩
  exact hkey ((isIdle_iff hdifference.distinct).mp hidle _ hfield)

/-! ## Fields that are asked for and sent -/

section NewChange

variable {c : Change} (setters : List Setter)

/-- A change asks for what was set last. -/
theorem value?_setAll (hnew : c.request = []) (hkey : key ≠ transitionKey) :
    Fields.value? (c.setAll setters).request key = lastValue? setters key := by
  rw [request_setAll, hnew, Setter.value?_applyAll setters Fields.distinct_nil hkey]
  exact Option.or_none

variable {setters}

/-- What the baseline does not meet is sent as it was set last. -/
theorem exists_body_of_not_met (hnew : c.request = []) (hon : key ≠ "on")
    (hkey : key ≠ transitionKey) (hlast : lastValue? setters key = some v)
    (hnot : ¬ Met c.baseline (key, v)) :
    ∃ body, (c.setAll setters).body? = some body ∧ Fields.value? body key = some v := by
  have hbuilt := built_setAll setters hnew
  have hasked := (value?_setAll setters hnew hkey).trans hlast
  have hsent : ¬ LeftOut (c.setAll setters).baseline (c.setAll setters).request (key, v) := by
    rw [leftOut_iff_met hon, baseline_setAll]
    exact hnot
  cases hbody : (c.setAll setters).body? with
  | none => exact absurd (leftOut_of_idle hbuilt hbody hkey hasked) hsent
  | some body => exact ⟨body, rfl, value?_body_of_sent hbuilt hbody hasked hsent⟩

/-- What the baseline meets is not sent. -/
theorem value?_body_of_met (hnew : c.request = []) (hon : key ≠ "on") (hkey : key ≠ transitionKey)
    (hlast : lastValue? setters key = some v) (hmet : Met c.baseline (key, v)) {body : Fields}
    (hbody : (c.setAll setters).body? = some body) : Fields.value? body key = none := by
  have hasked := (value?_setAll setters hnew hkey).trans hlast
  have hout : LeftOut (c.setAll setters).baseline (c.setAll setters).request (key, v) := by
    rw [leftOut_iff_met hon, baseline_setAll]
    exact hmet
  exact value?_body_of_leftOut (built_setAll setters hnew) hbody hasked hout fun h => absurd h hon

end NewChange

end LightBridge.Change
