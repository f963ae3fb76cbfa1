import LightBridge.Change.Operation
import LightBridge.Proofs.Change.Request

/-!
# What trimming leaves of a request

Trimming looks at each field by itself and drops those that the baseline satisfies. The power
setting alone depends on the others: it stays while something that is left switches the colour mode.
-/

namespace LightBridge.Change

open Fields (Distinct value?_filter value?_remove)

variable (baseline : Fields) {request : Fields} {b : Bool}

/-- What the baseline does not satisfy. -/
def unmet (baseline request : Fields) : Fields := request.filter (isNeeded baseline)

theorem distinct_unmet (h : Distinct request) : Distinct (unmet baseline request) :=
  h.filter (isNeeded baseline)

theorem isNeeded_on (v : Json) : isNeeded baseline ("on", v) = true := by
  unfold isNeeded
  cases Fields.value? baseline "on" <;> rfl

theorem value?_unmet (h : Distinct request) (key : String) :
    Fields.value? (unmet baseline request) key =
      (Fields.value? request key).filter fun v => isNeeded baseline (key, v) :=
  value?_filter h (isNeeded baseline) key

theorem value?_unmet_on (h : Distinct request) :
    Fields.value? (unmet baseline request) "on" = Fields.value? request "on" := by
  rw [value?_unmet baseline h]
  cases Fields.value? request "on" with
  | none => rfl
  | some v => rw [Option.filter_some, if_pos (isNeeded_on baseline v)]

theorem trimFields_eq (request : Fields) :
    trimFields baseline request =
      if powerUnchanged baseline (unmet baseline request) &&
          !(unmet baseline request).any (switchesMode baseline) then
        Fields.remove (unmet baseline request) "on"
      else unmet baseline request := rfl

/-- Every field but the power setting is left by trimming when the baseline does not satisfy it. -/
theorem value?_trimFields_of_ne (h : Distinct request) {key : String} (hkey : key ≠ "on") :
    Fields.value? (trimFields baseline request) key =
      Fields.value? (unmet baseline request) key := by
  rw [trimFields_eq]
  split
  · rw [value?_remove (distinct_unmet baseline h), if_neg hkey]
  · rfl

theorem has_trimFields (h : Distinct request) {key : String} (hkey : key ≠ "on") :
    Fields.has (trimFields baseline request) key = Fields.has (unmet baseline request) key := by
  rw [Fields.has, Fields.has, value?_trimFields_of_ne baseline h hkey]

theorem distinct_trimFields (h : Distinct request) : Distinct (trimFields baseline request) := by
  rw [trimFields_eq]
  split
  · exact (distinct_unmet baseline h).remove "on"
  · exact distinct_unmet baseline h

theorem mem_unmet_of_mem_trimFields (h : Distinct request) {field : String × Json}
    (hfield : field ∈ trimFields baseline request) : field ∈ unmet baseline request := by
  rw [trimFields_eq] at hfield
  split at hfield
  · exact ((Fields.mem_remove_iff (distinct_unmet baseline h)).mp hfield).1
  · exact hfield

theorem mem_request_of_mem_trimFields (h : Distinct request) {field : String × Json}
    (hfield : field ∈ trimFields baseline request) : field ∈ request :=
  (List.mem_filter.mp (mem_unmet_of_mem_trimFields baseline h hfield)).1

/-! ## Trimming again -/

/-- What trimming leaves is needed, all of it. -/
theorem unmet_trimFields (h : Distinct request) :
    unmet baseline (trimFields baseline request) = trimFields baseline request :=
  List.filter_eq_self.mpr fun _ hfield =>
    (List.mem_filter.mp (mem_unmet_of_mem_trimFields baseline h hfield)).2

/-- A request that was trimmed is left as it is, in the order of its fields as well. -/
theorem trimFields_trimFields (h : Distinct request) :
    trimFields baseline (trimFields baseline request) = trimFields baseline request := by
  -- only the power setting could be dropped now: it is gone, or it was kept for the fields that
  -- are still there
  rw [trimFields_eq baseline (trimFields baseline request), unmet_trimFields baseline h]
  by_cases hdrop : (powerUnchanged baseline (unmet baseline request) &&
      !(unmet baseline request).any (switchesMode baseline)) = true
  · have hgone : Fields.value? (trimFields baseline request) "on" = none := by
      rw [trimFields_eq, if_pos hdrop, value?_remove (distinct_unmet baseline h), if_pos rfl]
    have hpower : powerUnchanged baseline (trimFields baseline request) = false := by
      rw [powerUnchanged, hgone]
    rw [hpower, Bool.false_and, if_neg Bool.false_ne_true]
  · have hkept : trimFields baseline request = unmet baseline request := by
      rw [trimFields_eq, if_neg hdrop]
    rw [hkept, if_neg hdrop]

/-! ## Requests to a change -/

/-- The change after several requests to it, in order. -/
def performAll (c : Change) (operations : List Operation) : Change :=
  operations.foldl (fun c operation => (c.perform operation).1) c

/-- Whatever is asked of a change, only its fields to send change, and they stay fields that
setters write. -/
theorem performAll_built {c : Change} (h : Setter.Built c.request) (operations : List Operation) :
    ∃ fields, Setter.Built fields ∧ c.performAll operations = { c with request := fields } := by
  induction operations generalizing c with
  | nil => exact ⟨c.request, h, rfl⟩
  | cons operation rest ih =>
    have hstep : ∃ fields, Setter.Built fields ∧
        (c.perform operation).1 = { c with request := fields } := by
      cases operation with
      | set setters => exact ⟨_, h.applyAll setters, setAll_eq c setters⟩
      | trim =>
        refine ⟨trimFields c.baseline c.request, ?_, rfl⟩
        exact h.of_subset (distinct_trimFields c.baseline h.distinct)
          fun _ => mem_request_of_mem_trimFields c.baseline h.distinct
      | pending => exact ⟨c.request, h, rfl⟩
    obtain ⟨fields, hfields, hperform⟩ := hstep
    obtain ⟨fields', hfields', hrest⟩ := ih (c := (c.perform operation).1) (by
      rw [hperform]
      exact hfields)
    refine ⟨fields', hfields', ?_⟩
    show (c.perform operation).1.performAll rest = _
    rw [hrest, hperform]

/-! ## Commits of what was trimmed -/

variable {c : Change}

theorem trim_trim (h : Distinct c.request) : c.trim.trim = c.trim := by
  unfold trim
  rw [trimFields_trimFields c.baseline h]

/-- A commit trims anyway. -/
theorem body?_trim (h : Distinct c.request) : c.trim.body? = c.body? := by
  unfold body?
  dsimp only [trim]
  rw [trimFields_trimFields c.baseline h]

theorem commit_trim (h : Distinct c.request) : c.trim.commit = c.commit := by
  unfold commit
  rw [body?_trim h]
  rfl

theorem performAll_trims (h : Distinct c.request) (times : Nat) :
    (c.performAll (List.replicate times .trim)).body? = c.body? ∧
      (c.performAll (List.replicate times .trim)).commit = c.commit := by
  induction times generalizing c with
  | zero => exact ⟨rfl, rfl⟩
  | succ times ih =>
    obtain ⟨hbody, hcommit⟩ := ih (c := c.trim) (distinct_trimFields c.baseline h)
    exact ⟨hbody.trans (body?_trim h), hcommit.trans (commit_trim h)⟩

/-- **Trimming again.** Whatever was asked of a change, trimming it a second time changes nothing,
not even the order of its fields. Trimmed any number of times before it is committed, it writes the
same body, and in every world the commit gives the same answer or error, sends the same requests
and leaves the same behind, as without. -/
theorem trimming_again_changes_nothing (channel : Channel) (path : String) (baseline : Json)
    (cache : Option Cache) (operations : List Operation) (times : Nat) :
    let c := (start channel path baseline cache).performAll operations
    let trimmed := c.performAll (List.replicate times .trim)
    c.trim.trim = c.trim ∧ trimmed.body? = c.body? ∧ ∀ w, trimmed.commit w = c.commit w := by
  intro c trimmed
  obtain ⟨request, hbuilt, hc⟩ :=
    performAll_built (c := start channel path baseline cache) Setter.built_nil operations
  have hdistinct : Distinct c.request := by
    rw [show c = _ from hc]
    exact hbuilt.distinct
  obtain ⟨hbody, hcommit⟩ := performAll_trims hdistinct times
  exact ⟨trim_trim hdistinct, hbody, congrFun hcommit⟩

/-! ## The power setting -/

/-- The light has the power that is asked for, and nothing that is left switches the colour mode. -/
structure Satisfied (baseline request : Fields) (b : Bool) : Prop where
  unchanged : Fields.value? baseline "on" = some (.bool b)
  sameMode : (unmet baseline request).any (switchesMode baseline) = false

theorem same_bool_iff {v : Json} : (Json.bool b).same v = true ↔ v = .bool b := by
  cases v with
  | bool b' => cases b <;> cases b' <;> simp [Json.same]
  | _ => simp [Json.same]

theorem powerUnchanged_iff (hon : Fields.value? request "on" = some (.bool b)) :
    powerUnchanged baseline request = true ↔ Fields.value? baseline "on" = some (.bool b) := by
  unfold powerUnchanged
  rw [hon]
  cases Fields.value? baseline "on" with
  | none => simp
  | some current =>
    dsimp only
    rw [same_bool_iff, Option.some.injEq]

theorem trimFields_of_satisfied (h : Distinct request)
    (hon : Fields.value? request "on" = some (.bool b)) (hs : Satisfied baseline request b) :
    trimFields baseline request = Fields.remove (unmet baseline request) "on" := by
  have hunmet : Fields.value? (unmet baseline request) "on" = some (.bool b) := by
    rw [value?_unmet_on baseline h, hon]
  rw [trimFields_eq, (powerUnchanged_iff baseline hunmet).mpr hs.unchanged, hs.sameMode]
  exact if_pos rfl

theorem trimFields_of_not_satisfied (h : Distinct request)
    (hon : Fields.value? request "on" = some (.bool b)) (hs : ¬ Satisfied baseline request b) :
    trimFields baseline request = unmet baseline request := by
  have hunmet : Fields.value? (unmet baseline request) "on" = some (.bool b) := by
    rw [value?_unmet_on baseline h, hon]
  -- trimming drops the setting under both conditions only
  rw [trimFields_eq]
  refine if_neg fun hdrop => hs ?_
  obtain ⟨hsame, hmode⟩ := Bool.and_eq_true_iff.mp hdrop
  exact ⟨(powerUnchanged_iff baseline hunmet).mp hsame, by simpa using hmode⟩

end LightBridge.Change
