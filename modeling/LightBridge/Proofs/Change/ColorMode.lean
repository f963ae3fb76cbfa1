import LightBridge.Proofs.Change.Trim

/-!
# The colour mode after a trimmed request

A request with fields of several colour modes leads to one of them by precedence. Trimming looks at
each field by itself: when the field that decides is satisfied, and so is dropped, fields of another
mode that are left decide instead.
-/

namespace LightBridge.Change

open Fields (Distinct)

variable {baseline request : Fields} {key mode : String}

/-- The colour fields, the deciding ones first. -/
def colorKeys : List String := ["xy", "ct", "hue", "sat"]

/-- The field of a request that decides the colour mode. -/
def deciding? (request : Fields) : Option String := colorKeys.find? (Fields.has request)

/-- The colour mode after a request: the one that the request leads to, or else that of the state
before. -/
def modeAfter (baseline request : Fields) : Option Json :=
  match resultingMode? request with
  | some mode => some (.string mode)
  | none => Fields.value? baseline "colormode"

/-- The deciding field is satisfied, and another field of the request implies another mode. -/
def Redirected (baseline request : Fields) : Prop :=
  ∃ key value, deciding? request = some key ∧ Fields.value? request key = some value ∧
    isNeeded baseline (key, value) = false ∧
    ∃ other mode, Fields.has request other = true ∧ impliedMode? other = some mode ∧
      impliedMode? key ≠ some mode

/-! ## Colour fields -/

theorem resultingMode?_eq (request : Fields) :
    resultingMode? request = (deciding? request).bind impliedMode? := rfl

theorem mem_colorKeys (h : impliedMode? key = some mode) : key ∈ colorKeys := by
  unfold impliedMode? at h
  split at h <;> cases h <;> decide

theorem mode_ne_empty (h : impliedMode? key = some mode) : mode ≠ "" := by
  unfold impliedMode? at h
  split at h <;> cases h <;> decide

theorem exists_mode (h : key ∈ colorKeys) : ∃ mode, impliedMode? key = some mode := by
  simp only [colorKeys, List.mem_cons, List.not_mem_nil, or_false] at h
  rcases h with rfl | rfl | rfl | rfl
  · exact ⟨"xy", rfl⟩
  · exact ⟨"ct", rfl⟩
  · exact ⟨"hs", rfl⟩
  · exact ⟨"hs", rfl⟩

theorem ne_on_of_mem_colorKeys (h : key ∈ colorKeys) : key ≠ "on" := by
  rintro rfl
  revert h
  decide

theorem colormode_of_modeOf (h : modeOf baseline = mode) (hmode : mode ≠ "") :
    Fields.value? baseline "colormode" = some (.string mode) := by
  unfold modeOf at h
  cases hv : Fields.value? baseline "colormode" with
  | none =>
    rw [hv] at h
    exact absurd h.symm hmode
  | some v =>
    rw [hv] at h
    cases v with
    | string s =>
      have hs : s = mode := h
      rw [hs]
    | _ => exact absurd h.symm hmode

/-- A colour field that is satisfied implies the mode that there is. -/
theorem modeOf_of_satisfied {value : Json} (hmode : impliedMode? key = some mode)
    (h : isNeeded baseline (key, value) = false) : modeOf baseline = mode := by
  unfold isNeeded at h
  dsimp only at h
  cases hv : Fields.value? baseline key with
  | none =>
    rw [hv] at h
    nomatch h
  | some current =>
    rw [hv, hmode] at h
    simp only [Bool.not_eq_eq_eq_not, Bool.not_false, Bool.and_eq_true, beq_iff_eq] at h
    exact h.2

/-! ## Trimming -/

/-- A colour field is there after trimming when it was there and is needed. -/
theorem has_trimFields_color (h : Distinct request) (hkey : key ∈ colorKeys) :
    Fields.has (trimFields baseline request) key = true ↔
      ∃ value, Fields.value? request key = some value ∧ isNeeded baseline (key, value) = true := by
  rw [has_trimFields baseline h (ne_on_of_mem_colorKeys hkey), Fields.has, value?_unmet baseline h]
  cases Fields.value? request key <;> simp

theorem has_of_has_trimFields (h : Distinct request) (hkey : key ∈ colorKeys)
    (hhas : Fields.has (trimFields baseline request) key = true) :
    Fields.has request key = true := by
  obtain ⟨v, hv, -⟩ := (has_trimFields_color h hkey).mp hhas
  rw [Fields.has, hv]
  rfl

theorem has_trimFields_of_satisfied (h : Distinct request) (hkey : key ∈ colorKeys) {value : Json}
    (hvalue : Fields.value? request key = some value)
    (hsatisfied : isNeeded baseline (key, value) = false) :
    Fields.has (trimFields baseline request) key = false := by
  cases hhas : Fields.has (trimFields baseline request) key with
  | false => rfl
  | true =>
    obtain ⟨v, hv, hneeded⟩ := (has_trimFields_color h hkey).mp hhas
    rw [hvalue] at hv
    cases hv
    rw [hsatisfied] at hneeded
    nomatch hneeded

/-- A field that implies another mode than there is cannot be satisfied. -/
theorem has_trimFields_of_mode_ne (h : Distinct request) (hmode : impliedMode? key = some mode)
    (hne : modeOf baseline ≠ mode) (hhas : Fields.has request key = true) :
    Fields.has (trimFields baseline request) key = true := by
  obtain ⟨v, hv⟩ := Option.isSome_iff_exists.mp hhas
  refine (has_trimFields_color h (mem_colorKeys hmode)).mpr ⟨v, hv, ?_⟩
  cases hneeded : isNeeded baseline (key, v) with
  | true => rfl
  | false => exact absurd (modeOf_of_satisfied hmode hneeded) hne

/-- What is left of a request decides as before while the deciding field is needed. -/
theorem deciding?_trimFields_of_needed (h : Distinct request) {value : Json}
    (hdeciding : deciding? request = some key) (hvalue : Fields.value? request key = some value)
    (hneeded : isNeeded baseline (key, value) = true) :
    deciding? (trimFields baseline request) = some key := by
  obtain ⟨-, before, later, hkeys, hbefore⟩ := List.find?_eq_some_iff_append.mp hdeciding
  have hmem : ∀ other ∈ before, other ∈ colorKeys := by
    intro other hother
    rw [hkeys]
    exact List.mem_append_left _ hother
  have hkey : key ∈ colorKeys := List.mem_of_find?_eq_some hdeciding
  refine List.find?_eq_some_iff_append.mpr ⟨?_, before, later, hkeys, fun other hother => ?_⟩
  · exact (has_trimFields_color h hkey).mpr ⟨value, hvalue, hneeded⟩
  · -- a field before the deciding one was not there, so it is not there now
    have hnot := hbefore other hother
    cases hhas : Fields.has (trimFields baseline request) other with
    | false => rfl
    | true =>
      rw [has_of_has_trimFields h (hmem other hother) hhas] at hnot
      exact hnot

theorem deciding?_of_has {other : String} (hother : other = "xy" ∨ other = "ct")
    (hhas : Fields.has request other = true) :
    deciding? request = some "xy" ∨ deciding? request = some "ct" := by
  rw [deciding?, colorKeys, List.find?_cons, List.find?_cons]
  cases hxy : Fields.has request "xy" with
  | true => exact .inl rfl
  | false =>
    rcases hother with rfl | rfl
    · rw [hxy] at hhas
      nomatch hhas
    · rw [hhas]
      exact .inr rfl

theorem eq_of_impliedMode?_eq {other : String} (hkey : key = "xy" ∨ key = "ct")
    (h : impliedMode? other = impliedMode? key) : other = key := by
  rcases hkey with rfl | rfl
  · unfold impliedMode? at h
    split at h <;> simp_all
  · unfold impliedMode? at h
    split at h <;> simp_all

theorem mode_cases (h : impliedMode? key = some mode) :
    (key = "xy" ∨ key = "ct") ∨ (key = "hue" ∨ key = "sat") ∧ mode = "hs" := by
  unfold impliedMode? at h
  split at h <;> cases h <;> decide

/-- Only a field that has a mode of its own can be the deciding one of a redirected request. -/
theorem key_of_redirected {other mode' : String} (hdeciding : deciding? request = some key)
    (hmode : impliedMode? key = some mode) (hother : Fields.has request other = true)
    (hmode' : impliedMode? other = some mode') (hne : mode ≠ mode') : key = "xy" ∨ key = "ct" := by
  -- a deciding hue or saturation comes last: a field of another mode would have come before it
  rcases mode_cases hmode with hkey | ⟨hkey, rfl⟩
  · exact hkey
  · rcases mode_cases hmode' with hsingle | ⟨-, rfl⟩
    · rcases deciding?_of_has hsingle hother with h | h
      · exact .inl (Option.some.inj (hdeciding.symm.trans h))
      · exact .inr (Option.some.inj (hdeciding.symm.trans h))
    · exact absurd rfl hne

/-- A redirected request leads from the mode that there is to another one. -/
theorem resultingMode?_of_redirected (h : Distinct request) (hover : Redirected baseline request) :
    resultingMode? request = some (modeOf baseline) ∧ ∃ mode,
      resultingMode? (trimFields baseline request) = some mode ∧ mode ≠ modeOf baseline := by
  obtain ⟨key, value, hdeciding, hvalue, hsatisfied, other, mode', hother, hmode', hne⟩ := hover
  obtain ⟨mode, hmode⟩ := exists_mode (List.mem_of_find?_eq_some hdeciding)
  have hbaseline := modeOf_of_satisfied hmode hsatisfied
  subst hbaseline
  have hne' : modeOf baseline ≠ mode' := fun heq => hne (by rw [hmode, heq])
  refine ⟨by rw [resultingMode?_eq, hdeciding]; exact hmode, ?_⟩
  -- the field of the other mode is left, so some field decides
  have hleft := has_trimFields_of_mode_ne h hmode' hne' hother
  have hsome : (deciding? (trimFields baseline request)).isSome = true :=
    List.find?_isSome.mpr ⟨other, mem_colorKeys hmode', hleft⟩
  obtain ⟨key', hdeciding'⟩ := Option.isSome_iff_exists.mp hsome
  have hmem' := List.mem_of_find?_eq_some hdeciding'
  obtain ⟨mode'', hmode''⟩ := exists_mode hmem'
  refine ⟨mode'', by rw [resultingMode?_eq, hdeciding']; exact hmode'', fun heq => ?_⟩
  -- a field of the same mode would be the deciding one itself, and that is not left
  have hsame : key' = key := eq_of_impliedMode?_eq
    (key_of_redirected hdeciding hmode hother hmode' hne') (by rw [hmode'', hmode, heq])
  have hgone := has_trimFields_of_satisfied h (hsame ▸ hmem') hvalue hsatisfied
  rw [← hsame, List.find?_some hdeciding'] at hgone
  nomatch hgone

/-- Without fields of another mode, dropping the deciding field leaves the mode as it is. -/
theorem modeAfter_trimFields_of_satisfied (h : Distinct request) {value : Json}
    (hdeciding : deciding? request = some key) (hsatisfied : isNeeded baseline (key, value) = false)
    (hothers : ∀ other mode, Fields.has request other = true → impliedMode? other = some mode →
      impliedMode? key = some mode) :
    modeAfter baseline (trimFields baseline request) = modeAfter baseline request := by
  obtain ⟨mode, hmode⟩ := exists_mode (List.mem_of_find?_eq_some hdeciding)
  have hbaseline := colormode_of_modeOf (modeOf_of_satisfied hmode hsatisfied) (mode_ne_empty hmode)
  have hbefore : modeAfter baseline request = some (.string mode) := by
    rw [modeAfter, resultingMode?_eq, hdeciding, Option.bind_some, hmode]
  rw [hbefore, modeAfter, resultingMode?_eq]
  cases hdeciding' : deciding? (trimFields baseline request) with
  | none => exact hbaseline
  | some key' =>
    have hmem' := List.mem_of_find?_eq_some hdeciding'
    obtain ⟨mode', hmode'⟩ := exists_mode hmem'
    have hhas := has_of_has_trimFields h hmem' (List.find?_some hdeciding')
    have hsame := hothers key' mode' hhas hmode'
    rw [hmode] at hsame
    rw [Option.bind_some, hmode', Option.some.inj hsame]

theorem modeAfter_trimFields (h : Distinct request) (hnot : ¬ Redirected baseline request) :
    modeAfter baseline (trimFields baseline request) = modeAfter baseline request := by
  cases hdeciding : deciding? request with
  | none =>
    have hnone : deciding? (trimFields baseline request) = none := by
      refine List.find?_eq_none.mpr fun key hkey hhas => ?_
      exact List.find?_eq_none.mp hdeciding key hkey (has_of_has_trimFields h hkey hhas)
    rw [modeAfter, modeAfter, resultingMode?_eq, resultingMode?_eq, hdeciding, hnone]
  | some key =>
    have hhas : Fields.has request key = true := List.find?_some hdeciding
    obtain ⟨value, hvalue⟩ := Option.isSome_iff_exists.mp hhas
    cases hneeded : isNeeded baseline (key, value) with
    | true =>
      rw [modeAfter, modeAfter, resultingMode?_eq, resultingMode?_eq, hdeciding,
        deciding?_trimFields_of_needed h hdeciding hvalue hneeded]
    | false =>
      -- the field is dropped, but whatever is left implies the same mode
      refine modeAfter_trimFields_of_satisfied h hdeciding hneeded fun other mode hother hmode => ?_
      by_contra hne
      exact hnot ⟨key, value, hdeciding, hvalue, hneeded, other, mode, hother, hmode, hne⟩

theorem modeAfter_of_redirected (h : Distinct request) (hover : Redirected baseline request) :
    modeAfter baseline request = Fields.value? baseline "colormode" ∧
      modeAfter baseline (trimFields baseline request) ≠ Fields.value? baseline "colormode" := by
  obtain ⟨hmode, mode, htrim, hne⟩ := resultingMode?_of_redirected h hover
  have hempty : modeOf baseline ≠ "" := by
    rw [resultingMode?_eq, Option.bind_eq_some_iff] at hmode
    obtain ⟨key, -, hkey⟩ := hmode
    exact mode_ne_empty hkey
  -- a mode that a field implies is never empty, so the baseline states it
  have hbaseline := colormode_of_modeOf rfl hempty
  rw [modeAfter, modeAfter, hmode, htrim, hbaseline]
  refine ⟨rfl, fun heq => hne ?_⟩
  simpa using heq

/-- **Colour modes.** Trimming changes the mode that a request leads to exactly when the deciding
field is satisfied and another field implies another mode. Then the request leads to the mode that
there is before trimming, and to another one afterwards. -/
theorem mode_kept_by_trim_iff (channel : Channel) (path : String) (baseline : Json)
    (cache : Option Cache) (setters : List Setter) :
    let c := (start channel path baseline cache).setAll setters
    (modeAfter c.baseline c.trim.request = modeAfter c.baseline c.request ↔
        ¬ Redirected c.baseline c.request) ∧
      (Redirected c.baseline c.request →
        modeAfter c.baseline c.request = Fields.value? c.baseline "colormode" ∧
        modeAfter c.baseline c.trim.request ≠ Fields.value? c.baseline "colormode") := by
  intro c
  have hdistinct : Distinct c.request := by
    show Distinct ((start channel path baseline cache).setAll setters).request
    rw [setAll_eq]
    exact Setter.distinct_applyAll setters Fields.distinct_nil
  refine ⟨⟨fun hkept hover => ?_, fun hnot => ?_⟩, fun hover => ?_⟩
  · obtain ⟨hbefore, hafter⟩ := modeAfter_of_redirected hdistinct hover
    exact hafter (hkept.trans hbefore)
  · exact modeAfter_trimFields hdistinct hnot
  · exact modeAfter_of_redirected hdistinct hover

/-- Asking for the colour temperature that there is, and for a hue beside it, leads to the
temperature before trimming and to the hue afterwards. -/
theorem hue_decides_after_trim :
    let baseline := Json.object [("colormode", .string "ct"), ("ct", Setter.word 300),
      ("hue", Setter.word 5)]
    let channel : Channel := ⟨"192.168.2.116", 80, "a", .millis 100, 0, 0⟩
    let c := (start channel "lights/1/state" baseline none).setAll [.temperature 300, .hue 1000]
    modeAfter c.baseline c.request = some (.string "ct") ∧
      modeAfter c.baseline c.trim.request = some (.string "hs") ∧
      modeAfter c.baseline c.trim.request ≠ modeAfter c.baseline c.request := by
  intro baseline channel c
  have hbefore : modeAfter c.baseline c.request = some (.string "ct") := rfl
  have hafter : modeAfter c.baseline c.trim.request = some (.string "hs") := by
    have hmode : resultingMode? c.trim.request = some "hs" := by decide +kernel
    rw [modeAfter, hmode]
  refine ⟨hbefore, hafter, ?_⟩
  rw [hbefore, hafter]
  simp

end LightBridge.Change
