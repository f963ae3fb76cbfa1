import LightBridge.Proofs.Change.ColorMode
import LightBridge.Proofs.Change.Commit

/-!
# What a commit sends

A commit sends what differs from the last known state. Which fields those are, and which power
setting goes with them, is said here on its own, field by field, and not through the functions that
trim a request and complete it.
-/

namespace LightBridge.Change

open Fields (Distinct)
open Setter (Built transitionKey)

variable {baseline request fields : Fields} {field : String × Json} {mode : String}

/-! ## Fields that the baseline meets -/

/-- The baseline has the value of a field, within the tolerance of numbers. -/
def Agrees (baseline : Fields) (field : String × Json) : Prop :=
  ∃ current, Fields.value? baseline field.1 = some current ∧ current.agrees field.2 = true

/-- The baseline is in a colour mode. -/
def InMode (baseline : Fields) (mode : String) : Prop :=
  Fields.value? baseline "colormode" = some (.string mode)

/-- A field other than the power setting that need not be sent: brightness and effect when the
baseline has their value, and a colour field when the baseline is in its colour mode besides. -/
inductive Met (baseline : Fields) (field : String × Json) : Prop where
  | level (hkey : field.1 = "bri" ∨ field.1 = "effect") (hagrees : Agrees baseline field)
  | color {mode : String} (hmode : impliedMode? field.1 = some mode)
      (hagrees : Agrees baseline field) (hin : InMode baseline mode)

/-- A power setting that need not be sent: the light has that power, and no colour field that has to
be sent leads to another colour mode. -/
structure PowerMet (baseline request : Fields) (value : Json) : Prop where
  unchanged : Fields.value? baseline "on" = some value
  sameMode : ∀ field ∈ request, ¬ Met baseline field → ∀ mode, impliedMode? field.1 = some mode →
    InMode baseline mode

/-- A field that a commit leaves out. -/
def LeftOut (baseline request : Fields) (field : String × Json) : Prop :=
  Met baseline field ∨ field.1 = "on" ∧ PowerMet baseline request field.2

/-- The fields that differ from the baseline, in any order. -/
structure Difference (baseline request fields : Fields) : Prop where
  distinct : Distinct fields
  mem_iff : ∀ field, field ∈ fields ↔ field ∈ request ∧ ¬ LeftOut baseline request field

theorem modeOf_eq_iff (hmode : impliedMode? field.1 = some mode) :
    modeOf baseline = mode ↔ InMode baseline mode := by
  constructor
  · intro h
    exact colormode_of_modeOf h (mode_ne_empty hmode)
  · intro h
    rw [modeOf, h]
    rfl

theorem isNeeded_eq_false_iff : isNeeded baseline field = false ↔ Met baseline field := by
  unfold isNeeded
  cases hcurrent : Fields.value? baseline field.1 with
  | none =>
    have hnot : ¬ Agrees baseline field := by
      rintro ⟨current, hvalue, -⟩
      rw [hcurrent] at hvalue
      cases hvalue
    constructor
    · intro h
      cases h
    · rintro (⟨-, hagrees⟩ | ⟨-, hagrees, -⟩) <;> exact absurd hagrees hnot
  | some current =>
    have hiff : Agrees baseline field ↔ current.agrees field.2 = true := by
      rw [Agrees, hcurrent]
      simp
    cases hmode : impliedMode? field.1 with
    | some mode =>
      -- a colour field is neither brightness nor effect
      have hcolor := mem_colorKeys hmode
      simp only [Bool.not_eq_false', Bool.and_eq_true, beq_iff_eq, modeOf_eq_iff hmode, ← hiff]
      constructor
      · rintro ⟨hagrees, hin⟩
        exact .color hmode hagrees hin
      · rintro (⟨hkey, -⟩ | ⟨hmode', hagrees, hin⟩)
        · rcases hkey with hkey | hkey <;> simp [hkey, colorKeys] at hcolor
        · rw [hmode] at hmode'
          cases hmode'
          exact ⟨hagrees, hin⟩
    | none =>
      simp only [Bool.or_eq_true, decide_eq_true_eq]
      by_cases hkey : field.1 = "bri" ∨ field.1 = "effect"
      · rw [if_pos hkey, Bool.not_eq_false', ← hiff]
        constructor
        · exact .level hkey
        · rintro (⟨-, hagrees⟩ | ⟨hmode', -, -⟩)
          · exact hagrees
          · rw [hmode] at hmode'
            cases hmode'
      · rw [if_neg hkey]
        constructor
        · intro h
          cases h
        · rintro (⟨hkey', -⟩ | ⟨hmode', -, -⟩)
          · exact absurd hkey' hkey
          · rw [hmode] at hmode'
            cases hmode'

theorem isNeeded_iff : isNeeded baseline field = true ↔ ¬ Met baseline field := by
  rw [← isNeeded_eq_false_iff, Bool.not_eq_false]

theorem switchesMode_eq_false_iff :
    switchesMode baseline field = false ↔
      ∀ mode, impliedMode? field.1 = some mode → InMode baseline mode := by
  unfold switchesMode
  cases hmode : impliedMode? field.1 with
  | none => simp
  | some mode =>
    simp only [Option.some.injEq, forall_eq', bne_eq_false_iff_eq]
    rw [eq_comm, modeOf_eq_iff hmode]

theorem sameMode_iff :
    (unmet baseline request).any (switchesMode baseline) = false ↔
      ∀ field ∈ request, ¬ Met baseline field → ∀ mode, impliedMode? field.1 = some mode →
        InMode baseline mode := by
  rw [List.any_eq_false]
  simp only [unmet, List.mem_filter, isNeeded_iff, Bool.not_eq_true, switchesMode_eq_false_iff,
    and_imp]

theorem mem_unmet : field ∈ unmet baseline request ↔ field ∈ request ∧ ¬ Met baseline field := by
  rw [unmet, List.mem_filter, isNeeded_iff]

theorem mem_trimFields_of_ne (h : Distinct request) (hkey : field.1 ≠ "on") :
    field ∈ trimFields baseline request ↔ field ∈ request ∧ ¬ Met baseline field := by
  rw [← mem_unmet, trimFields_eq]
  split
  · rw [Fields.mem_remove_iff (distinct_unmet baseline h)]
    exact and_iff_left hkey
  · exact Iff.rfl

theorem satisfied_iff {b : Bool} :
    Satisfied baseline request b ↔ PowerMet baseline request (.bool b) :=
  ⟨fun h => ⟨h.unchanged, sameMode_iff.mp h.sameMode⟩,
    fun h => ⟨h.unchanged, sameMode_iff.mpr h.sameMode⟩⟩

theorem not_met_on (value : Json) : ¬ Met baseline ("on", value) :=
  isNeeded_iff.mp (isNeeded_on baseline value)

theorem mem_trimFields_on (h : Built request) {value : Json} (hfield : ("on", value) ∈ request) :
    ("on", value) ∈ trimFields baseline request ↔ ¬ PowerMet baseline request value := by
  -- trimming looks at this very setting, since there is no other
  have hon : Fields.value? request "on" = some value :=
    (Fields.value?_eq_some_iff h.distinct).mpr hfield
  obtain ⟨b, rfl⟩ := h.exists_bool hon
  rw [← satisfied_iff]
  by_cases hs : Satisfied baseline request b
  · rw [trimFields_of_satisfied baseline h.distinct hon hs,
      Fields.mem_remove_iff (distinct_unmet baseline h.distinct)]
    exact iff_of_false (fun hm => hm.2 rfl) fun hnot => hnot hs
  · rw [trimFields_of_not_satisfied baseline h.distinct hon hs, mem_unmet]
    exact iff_of_true ⟨hfield, not_met_on _⟩ hs

/-- Trimming leaves the difference. -/
theorem difference_trimFields (h : Built request) :
    Difference baseline request (trimFields baseline request) := by
  refine ⟨distinct_trimFields baseline h.distinct, fun field => ?_⟩
  -- the power setting alone depends on the other fields
  by_cases hkey : field.1 = "on"
  · obtain ⟨key, value⟩ := field
    subst hkey
    have hout : LeftOut baseline request ("on", value) ↔ PowerMet baseline request value := by
      simp [LeftOut, not_met_on]
    rw [hout]
    constructor
    · intro hleft
      have hfield := mem_request_of_mem_trimFields baseline h.distinct hleft
      exact ⟨hfield, (mem_trimFields_on h hfield).mp hleft⟩
    · rintro ⟨hfield, hnot⟩
      exact (mem_trimFields_on h hfield).mpr hnot
  · have hout : LeftOut baseline request field ↔ Met baseline field := by
      simp [LeftOut, hkey]
    rw [hout]
    exact mem_trimFields_of_ne h.distinct hkey

/-! ## Nothing to send -/

theorem isIdle_iff (h : Distinct fields) :
    isIdle fields = true ↔ ∀ field ∈ fields, field.1 = transitionKey := by
  cases fields with
  | nil => simp [isIdle]
  | cons first rest =>
    obtain ⟨k, v⟩ := first
    cases rest with
    | nil =>
      simp only [isIdle, List.isEmpty_cons, Bool.false_or, List.length_singleton, beq_self_eq_true,
        Bool.true_and, Fields.has, Fields.value?_cons, List.mem_singleton, forall_eq]
      by_cases hkey : k = transitionKey <;> simp [hkey]
    | cons second rest =>
      -- two fields cannot both have one key
      have hlength : isIdle ((k, v) :: second :: rest) = false := by simp [isIdle]
      rw [hlength]
      refine iff_of_false Bool.false_ne_true fun hall => ?_
      have hfirst : k = transitionKey := hall (k, v) List.mem_cons_self
      have hsecond : second.1 = transitionKey :=
        hall second (List.mem_cons_of_mem _ List.mem_cons_self)
      obtain ⟨hk, -⟩ := List.nodup_cons.mp h
      exact hk (List.mem_map.mpr ⟨second, List.mem_cons_self, by rw [hsecond, hfirst]⟩)

/-! ## The power that goes with it -/

/-- Brightness zero, for a light that is not known to be off. -/
def SwitchedOff (baseline fields : Fields) : Prop :=
  implies fields false = true ∧ Fields.value? baseline "on" ≠ some (.bool false)

/-- Any other brightness, or anything visible, for a light that is not known to be on. -/
def SwitchedOn (baseline fields : Fields) : Prop :=
  implies fields true = true ∧ Fields.value? baseline "on" ≠ some (.bool true)

/-- Fields together with the power setting that goes with them. A setting among the fields stands;
without one, the light is switched off, or else on, where the fields ask for it. -/
inductive Powered (baseline fields : Fields) : Fields → Prop where
  | given (hon : Fields.has fields "on" = true) : Powered baseline fields fields
  | off (hon : Fields.has fields "on" = false) (hoff : SwitchedOff baseline fields) :
      Powered baseline fields (fields ++ [("on", .bool false)])
  | on (hon : Fields.has fields "on" = false) (hnotOff : ¬ SwitchedOff baseline fields)
      (honNow : SwitchedOn baseline fields) :
      Powered baseline fields (fields ++ [("on", .bool true)])
  | silent (hon : Fields.has fields "on" = false) (hnotOff : ¬ SwitchedOff baseline fields)
      (hnotOn : ¬ SwitchedOn baseline fields) : Powered baseline fields fields

/-- The power that a state is known to have. -/
def knownPower? (baseline : Fields) : Option Bool :=
  (Fields.value? baseline "on").bind Json.bool?

theorem knownPower?_eq_some_iff (b : Bool) :
    knownPower? baseline = some b ↔ Fields.value? baseline "on" = some (.bool b) := by
  unfold knownPower?
  cases Fields.value? baseline "on" with
  | none => simp
  | some v => cases v <;> simp [Json.bool?]

theorem switchedOff_iff :
    SwitchedOff baseline fields ↔
      (decide (brightness? fields = some 0) && (knownPower? baseline).getD true) = true := by
  have hknown : (knownPower? baseline).getD true = true ↔ knownPower? baseline ≠ some false := by
    rcases knownPower? baseline with _ | _ | _ <;> simp
  rw [Bool.and_eq_true, hknown, ne_eq, knownPower?_eq_some_iff]
  rfl

theorem switchedOn_iff :
    SwitchedOn baseline fields ↔
      (!(knownPower? baseline).getD false && implies fields true) = true := by
  have hknown : (!(knownPower? baseline).getD false) = true ↔ knownPower? baseline ≠ some true := by
    rcases knownPower? baseline with _ | _ | _ <;> simp
  rw [Bool.and_eq_true, hknown, ne_eq, knownPower?_eq_some_iff]
  exact and_comm

theorem powered_withPower (baseline fields : Fields) :
    Powered baseline fields (withPower baseline fields) := by
  unfold withPower
  cases hon : Fields.has fields "on" with
  | true =>
    rw [impliedPower?_of_has hon]
    exact .given hon
  | false =>
    have hput : ∀ b, Fields.put fields "on" (.bool b) = fields ++ [("on", .bool b)] :=
      fun b => Fields.put_of_not_mem (Fields.has_eq_false_iff.mp hon) (.bool b)
    have himplied : impliedPower? baseline fields =
        if (decide (brightness? fields = some 0) && (knownPower? baseline).getD true) = true then
          some false
        else if (!(knownPower? baseline).getD false && implies fields true) = true then some true
        else none := by
      rw [impliedPower?, hon, if_neg Bool.false_ne_true]
      rfl
    rw [himplied]
    by_cases hoff : SwitchedOff baseline fields
    · rw [if_pos (switchedOff_iff.mp hoff)]
      dsimp only
      rw [hput]
      exact .off hon hoff
    · rw [if_neg (mt switchedOff_iff.mpr hoff)]
      by_cases honNow : SwitchedOn baseline fields
      · rw [if_pos (switchedOn_iff.mp honNow)]
        dsimp only
        rw [hput]
        exact .on hon hoff honNow
      · rw [if_neg (mt switchedOn_iff.mpr honNow)]
        exact .silent hon hoff honNow

/-! ## Commits -/

/-- **Difference.** Whatever was asked of a change, its commit sends the fields that differ from the
last known state. When these are none, or a transition time alone, nothing is sent, and the answer
is true. Otherwise one request writes them to the path of the change, with the power setting that
goes with them; a commit does nothing else, the patch of the cached state apart. -/
theorem commit_sends_difference (channel : Channel) (path : String) (baseline : Json)
    (cache : Option Cache) (operations : List Operation) (w : World) :
    let c := (start channel path baseline cache).performAll operations
    let known := baseline.object?.getD []
    ∃ fields, Difference known c.request fields ∧
      ((∀ field ∈ fields, field.1 = transitionKey) → c.commit w = .ok true w) ∧
      ((∃ field ∈ fields, field.1 ≠ transitionKey) → ∃ body, Powered known fields body ∧
        after c.commit w =
          { after (channel.request .put path (.object body)) w with
            snapshots := (after c.commit w).snapshots }) := by
  intro c known
  obtain ⟨request, hbuilt, hc⟩ :=
    performAll_built (c := start channel path baseline cache) Setter.built_nil operations
  have hc : c = { start channel path baseline cache with request } := hc
  have hdifference : Difference known c.request (trimFields known c.request) := by
    rw [hc]
    exact difference_trimFields hbuilt
  have hidle := isIdle_iff hdifference.distinct
  have hbody : c.body? = if isIdle (trimFields known c.request) then none
      else some (withPower known (trimFields known c.request)) := by
    rw [hc]
    rfl
  refine ⟨trimFields known c.request, hdifference, fun hnothing => ?_, fun hsome => ?_⟩
  · rw [if_pos (hidle.mpr hnothing)] at hbody
    exact commit_of_idle hbody w
  · have hbusy : ¬ isIdle (trimFields known c.request) = true := by
      rw [hidle]
      obtain ⟨field, hfield, hkey⟩ := hsome
      exact fun hall => hkey (hall field hfield)
    rw [if_neg hbusy] at hbody
    refine ⟨_, powered_withPower known _, ?_⟩
    have hafter := after_commit_of_body hbody w
    rwa [hc] at hafter ⊢

end LightBridge.Change
