import LightBridge.Proofs.Change.Body

/-!
# Power that is implied and not asked for

Without a power setting among the settings, the power is implied by what is sent, and not by what
was asked for: what the baseline meets is left out first. The light is therefore switched on by
something visible that it does not have yet, and stays off when it has all of that already.
-/

namespace LightBridge.Change

open Setter (Built lastPower? lastValue? transitionKey)

variable {known request fields : Fields} {key : String} {v : Json} {b : Bool}

/-! ## What a light shows -/

/-- A field that a light shows only when it is on: a brightness other than zero, or anything
visible. -/
def Shows (field : String × Json) : Prop :=
  field.1 ∈ visibleKeys ∨ field.1 = "bri" ∧ ∃ n, field.2.nat64? = some n ∧ n ≠ 0

theorem Shows.key_ne {field : String × Json} (h : Shows field) :
    field.1 ≠ "on" ∧ field.1 ≠ transitionKey := by
  have hvisible : ∀ key ∈ visibleKeys, key ≠ "on" ∧ key ≠ transitionKey := by decide
  rcases h with hkey | ⟨hkey, -⟩
  · exact hvisible _ hkey
  · rw [hkey]
    decide

theorem implies_on_iff :
    implies fields true = true ↔ ∃ key v, Fields.value? fields key = some v ∧ Shows (key, v) := by
  rw [implies, Bool.or_eq_true, List.any_eq_true, Option.any_eq_true]
  constructor
  · rintro (⟨n, hn, hne⟩ | ⟨key, hkey, hhas⟩)
    · obtain ⟨v, hv, hnat⟩ := Option.bind_eq_some_iff.mp hn
      exact ⟨"bri", v, hv, .inr ⟨rfl, n, hnat, of_decide_eq_true hne⟩⟩
    · obtain ⟨v, hv⟩ := Option.isSome_iff_exists.mp hhas
      exact ⟨key, v, hv, .inl hkey⟩
  · rintro ⟨key, v, hv, hkey | ⟨rfl, n, hnat, hne⟩⟩
    · refine .inr ⟨key, hkey, ?_⟩
      rw [Fields.has, hv]
      rfl
    · refine .inl ⟨n, ?_, decide_eq_true hne⟩
      rw [brightness?, hv]
      exact hnat

theorem implies_off_iff :
    implies fields false = true ↔
      ∃ v, Fields.value? fields "bri" = some v ∧ v.nat64? = some 0 := by
  rw [implies, decide_eq_true_eq, brightness?, Option.bind_eq_some_iff]

/-! ## The power in a body -/

/-- When the power is known and none was asked for, a body has the opposite power if what is sent
implies that one, and none otherwise. -/
theorem value?_body_on {c : Change} {body : Fields} (h : Fields.Distinct c.request)
    (hsilent : Fields.value? c.request "on" = none)
    (hknown : Fields.value? c.baseline "on" = some (.bool b)) (hbody : c.body? = some body) :
    Fields.value? body "on" =
      if implies (trimFields c.baseline c.request) (!b) then some (.bool !b) else none := by
  have hnone : Fields.value? (trimFields c.baseline c.request) "on" = none := by
    rw [Fields.value?_eq_none_iff] at hsilent ⊢
    intro hmem
    obtain ⟨field, hfield, hkey⟩ := List.mem_map.mp hmem
    have hasked := mem_request_of_mem_trimFields c.baseline h hfield
    exact hsilent (List.mem_map.mpr ⟨field, hasked, hkey⟩)
  have hhas : Fields.has (trimFields c.baseline c.request) "on" = false := by
    rw [Fields.has, hnone]
    rfl
  rw [eq_withPower_of_body? hbody, value?_withPower_on, impliedPower?_of_known hhas hknown, hnone]
  cases implies (trimFields c.baseline c.request) (!b) <;> rfl

/-! ## Commits -/

/-- Something was set last to a value that a light shows and that the baseline does not have. -/
def NewlyShown (known : Fields) (setters : List Setter) : Prop :=
  ∃ key v, lastValue? setters key = some v ∧ Shows (key, v) ∧ ¬ Met known (key, v)

section NewChange

variable {c : Change} {setters : List Setter}

theorem value?_setAll_on (hnew : c.request = []) (hsilent : ∀ s ∈ setters, s.power? = none) :
    Fields.value? (c.setAll setters).request "on" = none := by
  have hpower : lastPower? setters = none := by
    rw [lastPower?, List.filterMap_eq_nil_iff.mpr hsilent]
    rfl
  rw [value?_setAll setters hnew (by decide), Setter.lastValue?_on, hpower]
  rfl

theorem value?_body_on_setAll (hnew : c.request = []) (hsilent : ∀ s ∈ setters, s.power? = none)
    (hknown : Fields.value? c.baseline "on" = some (.bool b)) {body : Fields}
    (hbody : (c.setAll setters).body? = some body) :
    Fields.value? body "on" =
      if implies (trimFields c.baseline (c.setAll setters).request) (!b) then some (.bool !b)
      else none := by
  rw [← baseline_setAll c setters] at hknown ⊢
  exact value?_body_on (built_setAll setters hnew).distinct (value?_setAll_on hnew hsilent) hknown
    hbody

/-- What is sent is what was set last and is not met. -/
theorem value?_trimFields_setAll (hnew : c.request = []) (hon : key ≠ "on")
    (hkey : key ≠ transitionKey) :
    Fields.value? (trimFields c.baseline (c.setAll setters).request) key = some v ↔
      lastValue? setters key = some v ∧ ¬ Met c.baseline (key, v) := by
  rw [value?_trimFields_eq_some_iff (built_setAll setters hnew).distinct hon,
    value?_setAll setters hnew hkey]

theorem implies_on_setAll_iff (hnew : c.request = []) :
    implies (trimFields c.baseline (c.setAll setters).request) true = true ↔
      NewlyShown c.baseline setters := by
  rw [implies_on_iff]
  constructor
  · rintro ⟨key, v, hv, hshows⟩
    obtain ⟨hlast, hnot⟩ :=
      (value?_trimFields_setAll hnew hshows.key_ne.1 hshows.key_ne.2).mp hv
    exact ⟨key, v, hlast, hshows, hnot⟩
  · rintro ⟨key, v, hlast, hshows, hnot⟩
    have hv := (value?_trimFields_setAll hnew hshows.key_ne.1 hshows.key_ne.2).mpr ⟨hlast, hnot⟩
    exact ⟨key, v, hv, hshows⟩

theorem implies_off_setAll_iff (hnew : c.request = []) (hlast : lastValue? setters "bri" = some v)
    (hzero : v.nat64? = some 0) :
    implies (trimFields c.baseline (c.setAll setters).request) false = true ↔
      ¬ Met c.baseline ("bri", v) := by
  rw [implies_off_iff]
  constructor
  · rintro ⟨v', hv', -⟩
    obtain ⟨hlast', hnot⟩ := (value?_trimFields_setAll hnew (by decide) (by decide)).mp hv'
    cases hlast.symm.trans hlast'
    exact hnot
  · intro hnot
    have hv := (value?_trimFields_setAll hnew (by decide) (by decide)).mpr ⟨hlast, hnot⟩
    exact ⟨v, hv, hzero⟩

end NewChange

/-- **Implied power.** Settings without a power setting are committed against a state that is known.
When the light is known to be off, a request goes out that switches it on if something it shows was
set last to a value that the state does not meet; otherwise no request says anything of the power.
When the light is known to be on, and the brightness was set last to zero, a request goes out that
switches it off if the brightness is not zero yet; otherwise no request says anything of the power.
-/
theorem implied_power_of_difference (channel : Channel) (path : String) (known : Fields)
    (cache : Option Cache) {setters : List Setter} (hsilent : ∀ s ∈ setters, s.power? = none)
    (w : World) :
    let c := (start channel path (.object known) cache).setAll setters
    (Fields.value? known "on" = some (.bool false) →
      (NewlyShown known setters →
        ∃ body, c.Writes body w ∧ Fields.value? body "on" = some (.bool true)) ∧
      (¬ NewlyShown known setters →
        ∀ body, c.Writes body w → Fields.value? body "on" = none)) ∧
    (Fields.value? known "on" = some (.bool true) →
      ∀ v, lastValue? setters "bri" = some v → v.nat64? = some 0 →
        (¬ Met known ("bri", v) →
          ∃ body, c.Writes body w ∧ Fields.value? body "on" = some (.bool false)) ∧
        (Met known ("bri", v) →
          ∀ body, c.Writes body w → Fields.value? body "on" = none)) := by
  intro c
  have hnew : (start channel path (.object known) cache).request = [] := rfl
  refine ⟨fun hoff => ⟨fun hshown => ?_, fun hnot body hwrites => ?_⟩,
    fun hon v hlast hzero => ⟨fun hnot => ?_, fun hmet body hwrites => ?_⟩⟩
  · obtain ⟨key, v, hlast, hshows, hdiffers⟩ := id hshown
    obtain ⟨body, hbody, -⟩ :=
      exists_body_of_not_met hnew hshows.key_ne.1 hshows.key_ne.2 hlast hdiffers
    refine ⟨body, writes_of_body hbody w, ?_⟩
    rw [value?_body_on_setAll hnew hsilent hoff hbody]
    exact if_pos ((implies_on_setAll_iff hnew).mpr hshown)
  · rw [value?_body_on_setAll hnew hsilent hoff hwrites.wanted]
    exact if_neg (mt (implies_on_setAll_iff hnew).mp hnot)
  · obtain ⟨body, hbody, -⟩ := exists_body_of_not_met hnew (by decide) (by decide) hlast hnot
    refine ⟨body, writes_of_body hbody w, ?_⟩
    rw [value?_body_on_setAll hnew hsilent hon hbody]
    exact if_pos ((implies_off_setAll_iff hnew hlast hzero).mpr hnot)
  · rw [value?_body_on_setAll hnew hsilent hon hwrites.wanted]
    exact if_neg fun himplied => (implies_off_setAll_iff hnew hlast hzero).mp himplied hmet

/-- A light that is off and has its brightness already is switched on by a hue that is new, and one
that is on is switched off by brightness zero. -/
theorem hue_switches_on_and_zero_off :
    let channel : Channel := ⟨"192.168.2.116", 80, "a", .millis 100, 0, 0⟩
    let off : Fields := [("on", .bool false), ("bri", Setter.level 100)]
    let on : Fields := [("on", .bool true), ("bri", Setter.level 100)]
    let first := (start channel "lights/1/state" (.object off) none).setAll
      [.brightness 100, .hue 9000]
    let second := (start channel "lights/1/state" (.object on) none).setAll [.brightness 0]
    (∃ body, first.Writes body World.start ∧ Fields.value? body "on" = some (.bool true)) ∧
      ∃ body, second.Writes body World.start ∧ Fields.value? body "on" = some (.bool false) := by
  intro channel off on first second
  have hhue : NewlyShown off [.brightness 100, .hue 9000] :=
    ⟨"hue", Setter.word 9000, rfl, .inl (by decide), isNeeded_iff.mp rfl⟩
  have hzero : ¬ Met on ("bri", Setter.level 0) := by
    apply isNeeded_iff.mp
    decide +kernel
  have hbright : ∀ s ∈ [Setter.brightness 100, .hue 9000], s.power? = none := by decide
  have hdark : ∀ s ∈ [Setter.brightness 0], s.power? = none := by decide
  obtain ⟨hoff, -⟩ :=
    implied_power_of_difference channel "lights/1/state" off none hbright World.start
  obtain ⟨-, hon⟩ := implied_power_of_difference channel "lights/1/state" on none hdark World.start
  exact ⟨(hoff rfl).1 hhue, (hon rfl _ rfl rfl).1 hzero⟩

/-- A light that is off and asked for the brightness that it has already stays off: there is nothing
to send. -/
theorem power_lost_to_trimming :
    let channel : Channel := ⟨"192.168.2.116", 80, "a", .millis 100, 0, 0⟩
    let known := Json.object [("on", .bool false), ("bri", Setter.level 100)]
    let c := (start channel "lights/1/state" known none).setAll [.brightness 100]
    (∀ s ∈ [Setter.brightness 100], s.power? = none) ∧
      lastValue? [.brightness 100] "bri" = some (Setter.level 100) ∧
      (Setter.level 100).nat64? = some 100 ∧
      (outcome c.commit World.start).toOption = some true ∧
      (after c.commit World.start).sent.length = 0 := by
  intro channel known c
  refine ⟨by decide, rfl, rfl, ?_⟩
  decide +kernel

end LightBridge.Change
