import LightBridge.Proofs.Cache.Holdings
import LightBridge.Proofs.Change.Overlap

/-!
# Committing again

What a commit sends is written back, so that the cached state then satisfies everything that was
asked for: the values, the colour mode that goes with them, and the power. The same settings against
that state leave nothing to send. Alerts and increments are no part of a state, settings for two
colour modes cannot both be satisfied, and neither can a power setting that the rest opposes.
-/

namespace LightBridge

namespace Setter

/-- A setter of something that stays: neither an alert nor an increment. -/
def isSteady : Setter → Bool
  | .brightnessBy _ | .saturationBy _ | .hueBy _ | .temperatureBy _ | .xyBy .. | .flash
  | .longFlash | .stopFlash => false
  | _ => true

/-- The fields that steady setters write, the transition time apart. -/
def steadyKeys : List String := ["on", "bri", "hue", "sat", "ct", "xy", "effect"]

theorem mem_steadyKeys {s : Setter} (hs : s.isSteady = true) {field : String × Json}
    (hfield : field ∈ s.fields) (hkey : field.1 ≠ transitionKey) : field.1 ∈ steadyKeys := by
  cases s with
  | brightnessBy | saturationBy | hueBy | temperatureBy | xyBy | flash | longFlash | stopFlash =>
    cases hs
  | transition tenths =>
    change field ∈ (if tenths = defaultTransition then _ else _) at hfield
    split at hfield
    · cases hfield
    · rw [List.mem_singleton.mp hfield] at hkey
      exact absurd rfl hkey
  | hueSaturation h n =>
    simp only [fields, List.mem_cons, List.not_mem_nil, or_false] at hfield
    rcases hfield with rfl | rfl <;> simp [steadyKeys]
  | on | brightness | hue | saturation | xy | temperature | colorLoop =>
    rw [List.mem_singleton.mp hfield]
    simp [steadyKeys]

end Setter

namespace Change

open Fields (Distinct)
open Setter (Built applyAll steadyKeys transitionKey)

/-- A request that a state can satisfy as a whole. -/
structure Repeatable (request : Fields) : Prop where
  built : Built request
  steady : ∀ field ∈ request, field.1 ≠ transitionKey → field.1 ∈ steadyKeys
  oneMode : ∀ first ∈ request, ∀ second ∈ request, ∀ mode mode',
    impliedMode? first.1 = some mode → impliedMode? second.1 = some mode' → mode = mode'
  unopposed : ∀ b, Fields.value? request "on" = some (.bool b) → implies request (!b) = false

theorem repeatable_applyAll {setters : List Setter} (hsteady : ∀ s ∈ setters, s.isSteady = true)
    (hmodes : ∀ first ∈ applyAll setters [], ∀ second ∈ applyAll setters [], ∀ mode mode',
      impliedMode? first.1 = some mode → impliedMode? second.1 = some mode' → mode = mode')
    (hpower : ∀ b, Fields.value? (applyAll setters []) "on" = some (.bool b) →
      implies (applyAll setters []) (!b) = false) :
    Repeatable (applyAll setters []) := by
  refine ⟨Setter.built_nil.applyAll setters, fun field hfield hkey => ?_, hmodes, hpower⟩
  rcases Setter.mem_of_mem_applyAll Fields.distinct_nil hfield with ⟨s, hs, hwritten⟩ | hnil
  · exact Setter.mem_steadyKeys (hsteady s hs) hwritten hkey
  · cases hnil

variable {baseline request : Fields} {c : Change} {field : String × Json} {mode : String}

/-! ## Nothing is overruled -/

theorem value?_of_value?_unmet (h : Distinct request) {key : String} {v : Json}
    (hvalue : Fields.value? (unmet baseline request) key = some v) :
    Fields.value? request key = some v := by
  rw [value?_unmet baseline h, Option.filter_eq_some_iff] at hvalue
  exact hvalue.1

/-- What is left of a request implies no power that the request does not imply. -/
theorem implies_of_implies_unmet (h : Distinct request) {power : Bool}
    (himplies : implies (unmet baseline request) power = true) : implies request power = true := by
  have hbrightness : ∀ n, brightness? (unmet baseline request) = some n →
      brightness? request = some n := by
    intro n hn
    obtain ⟨v, hv, hnat⟩ := Option.bind_eq_some_iff.mp hn
    exact Option.bind_eq_some_iff.mpr ⟨v, value?_of_value?_unmet h hv, hnat⟩
  have hhas : ∀ key, Fields.has (unmet baseline request) key = true →
      Fields.has request key = true := by
    intro key hkey
    obtain ⟨v, hv⟩ := Option.isSome_iff_exists.mp hkey
    exact Option.isSome_iff_exists.mpr ⟨v, value?_of_value?_unmet h hv⟩
  cases power with
  | false => exact decide_eq_true (hbrightness 0 (of_decide_eq_true himplies))
  | true =>
    rw [implies, Bool.or_eq_true] at himplies ⊢
    rcases himplies with hlevel | hvisible
    · left
      cases hn : brightness? (unmet baseline request) with
      | none =>
        rw [hn] at hlevel
        cases hlevel
      | some n =>
        rw [hn] at hlevel
        rw [hbrightness n hn]
        exact hlevel
    · right
      obtain ⟨key, hkey, hin⟩ := List.any_eq_true.mp hvisible
      exact List.any_eq_true.mpr ⟨key, hkey, hhas key hin⟩

theorem Repeatable.not_overruled (h : Repeatable request) {b : Bool}
    (hon : Fields.value? request "on" = some (.bool b)) : ¬ Overruled baseline request b := by
  intro hover
  have hopposed := implies_of_implies_unmet h.built.distinct hover.opposed
  rw [h.unopposed b hon] at hopposed
  cases hopposed

/-! ## The state after the first commit -/

theorem steady_spec {key : String} (h : key ∈ steadyKeys) :
    key ≠ "colormode" ∧ Lasting key ∧ key ≠ transitionKey := by
  have hall : ∀ key ∈ steadyKeys, key ≠ "colormode" ∧ isDurable (key, .null) = true ∧
      key ≠ transitionKey := by decide +kernel
  obtain ⟨hmode, hdurable, htransition⟩ := hall key h
  exact ⟨hmode, (isDurable_iff .null).mp hdurable, htransition⟩

/-- The state has every value that was asked for. -/
theorem agrees_after_commit (h : Repeatable c.request) (hfield : field ∈ c.request)
    (hkey : field.1 ≠ transitionKey) : Agrees (settled c.body?.toList c.baseline) field := by
  obtain ⟨key, v⟩ := field
  obtain ⟨hmode, hlasting, -⟩ := steady_spec (h.steady _ hfield hkey)
  have hasked := (Fields.value?_eq_some_iff h.built.distinct).mpr hfield
  obtain ⟨s, hs⟩ := h.built.written _ hfield
  have hbodies : ∀ body ∈ ([] : List Fields), Built body := by simp
  have hiff := agrees_settled_iff h.built hbodies hmode hlasting hkey hasked
    (agrees_self_of_written s hs) (by rintro rfl b rfl; exact h.not_overruled hasked)
  -- nothing else was written since
  refine hiff.mpr ?_
  rintro ⟨-, other, hother, -⟩
  cases hother

theorem inMode_of_leftOut (hout : LeftOut baseline request field)
    (hmode : impliedMode? field.1 = some mode) : InMode baseline mode := by
  have hcolor := mem_colorKeys hmode
  rcases hout with (⟨hlevel, -⟩ | ⟨hmode', -, hin⟩) | ⟨hon, -⟩
  · rcases hlevel with hbri | heffect
    · rw [hbri] at hcolor
      simp [colorKeys] at hcolor
    · rw [heffect] at hcolor
      simp [colorKeys] at hcolor
  · rw [hmode] at hmode'
    cases hmode'
    exact hin
  · rw [hon] at hcolor
    simp [colorKeys] at hcolor

/-- The state is in the colour mode of whatever colour field was asked for. -/
theorem inMode_after_commit (h : Repeatable c.request) (hfield : field ∈ c.request)
    (hmode : impliedMode? field.1 = some mode) :
    InMode (settled c.body?.toList c.baseline) mode := by
  have hasked := (Fields.value?_eq_some_iff h.built.distinct).mpr hfield
  have hcolor := mem_colorKeys hmode
  cases hbody : c.body? with
  | none =>
    have hkey : field.1 ≠ transitionKey := by
      intro hkey
      rw [hkey] at hcolor
      simp [colorKeys, transitionKey] at hcolor
    exact inMode_of_leftOut (leftOut_of_idle h.built hbody hkey hasked) hmode
  | some body =>
    have hpatched : Patched body c.baseline (settled (some body).toList c.baseline) :=
      patched_spec (built_body h.built hbody) c.baseline
    cases hdeciding : deciding? body with
    | some key =>
      -- a colour field was sent, and it has the only mode that there is
      obtain ⟨mode', hmode'⟩ := exists_mode (List.mem_of_find?_eq_some hdeciding)
      have hhas : Fields.has body key = true := by
        unfold deciding? at hdeciding
        exact List.find?_some hdeciding
      obtain ⟨v, hv⟩ := Option.isSome_iff_exists.mp hhas
      have hne : key ≠ "on" := ne_on_of_mem_colorKeys (List.mem_of_find?_eq_some hdeciding)
      have hsent : (key, v) ∈ c.request := by
        rw [eq_withPower_of_body? hbody, value?_withPower_of_ne hne] at hv
        have hleft := (Fields.value?_eq_some_iff
          (distinct_trimFields c.baseline h.built.distinct)).mp hv
        exact mem_request_of_mem_trimFields c.baseline h.built.distinct hleft
      rw [h.oneMode field hfield (key, v) hsent mode mode' hmode hmode']
      exact hpatched.mode key mode' hdeciding hmode'
    | none =>
      -- no colour field was sent, so each of them was satisfied before, and so was its mode
      have hnone : ∀ key ∈ colorKeys, Fields.has body key = false := by
        simpa [deciding?] using hdeciding
      have hout : LeftOut c.baseline c.request field := by
        by_contra hsent
        have hvalue := value?_body_of_sent h.built hbody hasked hsent
        have hhas := hnone field.1 hcolor
        rw [Fields.has, hvalue] at hhas
        cases hhas
      rw [InMode, hpatched.sameMode hnone]
      exact inMode_of_leftOut hout hmode

/-- The state satisfies every field that was asked for, the power setting apart. -/
theorem met_after_commit (h : Repeatable c.request) (hfield : field ∈ c.request)
    (hkey : field.1 ≠ transitionKey) (hon : field.1 ≠ "on") :
    Met (settled c.body?.toList c.baseline) field := by
  have hagrees := agrees_after_commit h hfield hkey
  cases hmode : impliedMode? field.1 with
  | some mode => exact .color hmode hagrees (inMode_after_commit h hfield hmode)
  | none =>
    refine .level ?_ hagrees
    have hsteady := h.steady field hfield hkey
    simp only [steadyKeys, List.mem_cons, List.not_mem_nil, or_false] at hsteady
    rcases hsteady with h | h | h | h | h | h | h
    · exact absurd h hon
    · exact .inl h
    · rw [h] at hmode; cases hmode
    · rw [h] at hmode; cases hmode
    · rw [h] at hmode; cases hmode
    · rw [h] at hmode; cases hmode
    · exact .inr h

theorem leftOut_after_commit (h : Repeatable c.request) (hfield : field ∈ c.request)
    (hkey : field.1 ≠ transitionKey) :
    LeftOut (settled c.body?.toList c.baseline) c.request field := by
  by_cases hon : field.1 = "on"
  · obtain ⟨key, v⟩ := field
    subst hon
    have hasked := (Fields.value?_eq_some_iff h.built.distinct).mpr hfield
    obtain ⟨b, rfl⟩ := h.built.exists_bool hasked
    obtain ⟨current, hcurrent, hagrees⟩ := agrees_after_commit h hfield hkey
    have hsame : current = .bool b := by
      cases current with
      | bool b' => cases b <;> cases b' <;> first | rfl | cases hagrees
      | _ => cases hagrees
    refine .inr ⟨rfl, by rw [hcurrent, hsame], fun other hother hunmet mode hmode => ?_⟩
    -- no colour field is left that could lead to another mode
    exact inMode_after_commit h hother hmode
  · exact .inl (met_after_commit h hfield hkey hon)

/-- Asked again, the state leaves nothing to send. -/
theorem body?_after_commit (h : Repeatable c.request) {again : Change}
    (hbaseline : again.baseline = settled c.body?.toList c.baseline)
    (hrequest : again.request = c.request) : again.body? = none := by
  have hdifference : Difference again.baseline again.request
      (trimFields again.baseline again.request) :=
    difference_trimFields (by rw [hrequest]; exact h.built)
  have hidle : isIdle (trimFields again.baseline again.request) = true := by
    rw [isIdle_iff hdifference.distinct]
    intro field hfield
    by_contra hkey
    obtain ⟨hasked, hsent⟩ := (hdifference.mem_iff field).mp hfield
    rw [hrequest] at hasked hsent
    rw [hbaseline] at hsent
    exact hsent (leftOut_after_commit h hasked hkey)
  unfold body?
  exact if_pos hidle

/-! ## Two commits -/

/-- **Committing again.** Settings without alerts and increments, whose colour fields have at most
one mode among them and whose power setting the rest does not oppose, are committed against what a
cache reads, and the answer is true. When they are committed again against what the cache reads
later, and nothing but other places was fetched or updated in between, then nothing is sent, and the
answer is true again. -/
theorem recommit_sends_nothing {setters : List Setter}
    (hsteady : ∀ s ∈ setters, s.isSteady = true)
    (hmodes : ∀ first ∈ applyAll setters [], ∀ second ∈ applyAll setters [], ∀ mode mode',
      impliedMode? first.1 = some mode → impliedMode? second.1 = some mode' → mode = mode')
    (hpower : ∀ b, Fields.value? (applyAll setters []) "on" = some (.bool b) →
      implies (applyAll setters []) (!b) = false)
    {cache : Cache} {state : Fields} {w : World} (hread : outcome cache.peek w = .ok (.object state))
    (channel : Channel) (path : String) {between later : List Deed}
    (hbetween : ∀ d ∈ between, d.Spares cache) (hlater : ∀ d ∈ later, d.Spares cache)
    (hlive : cache.Live (w.enactAll between))
    (hok : outcome ((start channel path (.object state) (some cache)).setAll setters).commit
      (w.enactAll between) = .ok true)
    (hlive' : cache.Live ((after ((start channel path (.object state) (some cache)).setAll
      setters).commit (w.enactAll between)).enactAll later)) :
    let first := (start channel path (.object state) (some cache)).setAll setters
    let w' := (after first.commit (w.enactAll between)).enactAll later
    ∃ state', outcome cache.peek w' = .ok (.object state') ∧
      ((start channel path (.object state') (some cache)).setAll setters).commit w' = .ok true w' := by
  intro first w'
  have hbaseline : first.baseline = state := baseline_setAll _ setters
  have hrequest : first.request = applyAll setters [] := request_setAll _ setters
  have hcache : first.cache = some cache := cache_setAll _ setters
  have hrepeatable : Repeatable first.request := by
    rw [hrequest]
    exact repeatable_applyAll hsteady hmodes hpower
  -- the state that the first commit leaves is the one that is read later
  rw [Cache.outcome_peek] at hread ⊢
  have hview := Cache.view_enactAll hread hbetween hlive
  have hafter : cache.view (after first.commit (w.enactAll between)) =
      .ok (.object (settled first.body?.toList first.baseline)) := by
    rw [view_after_commit hcache hview, acknowledged?_of_ok hok, hbaseline]
  have hview' : cache.view w' = .ok (.object (settled first.body?.toList first.baseline)) :=
    Cache.view_enactAll hafter hlater hlive'
  refine ⟨_, hview', commit_of_idle (body?_after_commit hrepeatable ?_ ?_) w'⟩
  · exact baseline_setAll _ setters
  · rw [hrequest]
    exact request_setAll _ setters

/-- A lamp is told twice to be on, in one colour, with a slow transition. Time passes before the
first commit, and another lamp changes after it. -/
theorem recommit_of_color_sends_nothing :
    let setters := [Setter.on true, .hueSaturation 9000 200, .transition 10]
    let w := { Lamp.world with
      transports := Table.empty.set 0 (Script.ofLines 0 [.always .put "/api/user/lights/1/state" <|
        "[\x7b\"success\":\x7b\"/lights/1/state/on\":true\x7d\x7d," ++
        "\x7b\"success\":\x7b\"/lights/1/state/hue\":9000\x7d\x7d," ++
        "\x7b\"success\":\x7b\"/lights/1/state/sat\":200\x7d\x7d," ++
        "\x7b\"success\":\x7b\"/lights/1/state/transitiontime\":10\x7d\x7d]"]) }
    let first := (start Lamp.channel "/lights/1/state" (.object Lamp.initial)
      (some Lamp.cache)).setAll setters
    let elsewhere := [Deed.update (.child (.root 0 "lights" Lamp.channel .never) 3 "2") id]
    let w' := (after first.commit (w.enactAll [.event (.pass 40)])).enactAll elsewhere
    w'.sent.length = 1 ∧ ∃ state', outcome Lamp.cache.peek w' = .ok (.object state') ∧
      ((start Lamp.channel "/lights/1/state" (.object state') (some Lamp.cache)).setAll
        setters).commit w' = .ok true w' := by
  intro setters w first elsewhere w'
  have hmode : ∀ field ∈ applyAll setters [], ∀ mode, impliedMode? field.1 = some mode →
      mode = "hs" := by
    have hall : ∀ field ∈ applyAll setters [], impliedMode? field.1 ∈ [none, some "hs"] := by
      decide
    intro field hfield mode hmode
    simpa [hmode] using hall field hfield
  have hpower : ∀ b, Fields.value? (applyAll setters []) "on" = some (.bool b) →
      implies (applyAll setters []) (!b) = false := by
    intro b hon
    have hasked : Fields.value? (applyAll setters []) "on" = some (.bool true) := rfl
    cases hasked.symm.trans hon
    decide
  have hbetween : ∀ d ∈ [Deed.event (.pass 40)], d.Spares Lamp.cache := by
    intro d hd
    rw [List.mem_singleton.mp hd]
    trivial
  have hlater : ∀ d ∈ elsewhere, d.Spares Lamp.cache := by
    intro d hd
    rw [List.mem_singleton.mp hd]
    intro _
    decide
  obtain ⟨hok, hlive, hsent⟩ : (outcome first.commit (w.enactAll [.event (.pass 40)])).toOption =
      some true ∧ Lamp.cache.Live w' ∧ w'.sent.length = 1 := by
    decide +kernel
  refine ⟨hsent, ?_⟩
  exact recommit_sends_nothing (by decide)
    (fun _ h _ h' _ _ hm hm' => (hmode _ h _ hm).trans (hmode _ h' _ hm').symm) hpower rfl
    Lamp.channel "/lights/1/state" hbetween hlater (by decide) (eq_ok_of_toOption hok) hlive

end Change

end LightBridge
