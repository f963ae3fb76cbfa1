import LightBridge.Proofs.Change.Play
import LightBridge.Proofs.Change.Trim
import LightBridge.Proofs.Channel.Spacing

/-!
# The power setting of a commit

A commit drops a power setting that the baseline satisfies, and then adds the one that the rest of
the request implies. The second step does not know what the first one dropped: what is left of the
request can imply the opposite of the power that was asked for, and then the opposite is sent.
-/

namespace LightBridge.Change

open Fields (Distinct value?_put_self value?_remove)
open Setter (lastPower? applyAll)

variable {baseline request : Fields} {b : Bool}

/-- The brightness that a request sets. -/
def brightness? (request : Fields) : Option Nat := (Fields.value? request "bri").bind Json.nat64?

/-- Whether a request implies a power: brightness zero implies off, any other brightness and
everything visible imply on. -/
def implies (request : Fields) : Bool → Bool
  | false => brightness? request = some 0
  | true => (brightness? request).any (· ≠ 0) || visibleKeys.any (Fields.has request)

/-- The setting is dropped, and what is left implies the opposite power. -/
structure Overruled (baseline request : Fields) (b : Bool) : Prop
    extends Satisfied baseline request b where
  opposed : implies (unmet baseline request) (!b) = true

theorem impliedPower?_of_has (h : Fields.has request "on" = true) :
    impliedPower? baseline request = none := by
  rw [impliedPower?, if_pos h]

/-- When the power is known, a request without a power setting gets the opposite one if it implies
that one, and none otherwise. -/
theorem impliedPower?_of_known (hnone : Fields.has request "on" = false)
    (hknown : Fields.value? baseline "on" = some (.bool b)) :
    impliedPower? baseline request = if implies request (!b) then some (!b) else none := by
  have hbool : (some (Json.bool b)).bind Json.bool? = some b := rfl
  rw [impliedPower?, hnone, hknown, hbool, if_neg Bool.false_ne_true]
  -- only a power that is known is overruled, and only by its opposite
  cases b with
  | true =>
    show (if implies request false && true then some false else _) = _
    rw [Bool.and_true]
    rfl
  | false =>
    show (if implies request false && false then _ else
      if true && implies request true then some true else none) = _
    rw [Bool.and_false, if_neg Bool.false_ne_true, Bool.true_and]
    rfl

theorem implies_congr {request' : Fields} (h : ∀ key, key ≠ "on" →
    Fields.value? request key = Fields.value? request' key) (power : Bool) :
    implies request power = implies request' power := by
  have hbri : brightness? request = brightness? request' := by
    rw [brightness?, h "bri" (by decide)]
    rfl
  have hhas : ∀ key, key ≠ "on" → Fields.has request key = Fields.has request' key := by
    intro key hkey
    rw [Fields.has, h key hkey]
    rfl
  cases power with
  | false => rw [implies, implies, hbri]
  | true =>
    rw [implies, implies, hbri]
    simp only [visibleKeys, List.any_cons, List.any_nil, hhas "effect" (by decide),
      hhas "hue" (by decide), hhas "sat" (by decide), hhas "xy" (by decide), hhas "ct" (by decide)]

theorem value?_withPower_on (baseline request : Fields) :
    Fields.value? (withPower baseline request) "on" =
      ((impliedPower? baseline request).map Json.bool).or (Fields.value? request "on") := by
  unfold withPower
  cases impliedPower? baseline request with
  | none => rfl
  | some power => exact value?_put_self request "on" (.bool power)

/-- While trimming keeps the setting, it is sent as it is. -/
theorem power_of_not_satisfied (h : Distinct request)
    (hon : Fields.value? request "on" = some (.bool b)) (hs : ¬ Satisfied baseline request b) :
    Fields.value? (withPower baseline (trimFields baseline request)) "on" = some (.bool b) := by
  have hleft : Fields.value? (unmet baseline request) "on" = some (.bool b) := by
    rw [value?_unmet_on baseline h, hon]
  have hhas : Fields.has (unmet baseline request) "on" = true := by
    rw [Fields.has, hleft]
    rfl
  rw [trimFields_of_not_satisfied baseline h hon hs, value?_withPower_on,
    impliedPower?_of_has hhas, hleft]
  rfl

/-- When trimming drops the setting, the rest of the request decides. -/
theorem power_of_satisfied (h : Distinct request)
    (hon : Fields.value? request "on" = some (.bool b)) (hs : Satisfied baseline request b) :
    Fields.value? (withPower baseline (trimFields baseline request)) "on" =
      if implies (unmet baseline request) (!b) then some (.bool !b) else none := by
  have hdropped : Fields.value? (trimFields baseline request) "on" = none := by
    rw [trimFields_of_satisfied baseline h hon hs, value?_remove (distinct_unmet baseline h),
      if_pos rfl]
  have hhas : Fields.has (trimFields baseline request) "on" = false := by
    rw [Fields.has, hdropped]
    rfl
  -- the fields beside the power setting are those before it was dropped
  have hrest := implies_congr (fun _ hkey => value?_trimFields_of_ne baseline h hkey) (!b)
  rw [value?_withPower_on, impliedPower?_of_known hhas hs.unchanged, hrest, hdropped]
  cases implies (unmet baseline request) (!b) <;> rfl

theorem power_of_overruled (h : Distinct request)
    (hon : Fields.value? request "on" = some (.bool b)) (hover : Overruled baseline request b) :
    Fields.value? (withPower baseline (trimFields baseline request)) "on" = some (.bool !b) := by
  rw [power_of_satisfied h hon hover.toSatisfied, hover.opposed]
  exact if_pos rfl

theorem power_of_not_overruled (h : Distinct request)
    (hon : Fields.value? request "on" = some (.bool b)) (hnot : ¬ Overruled baseline request b) :
    let sent := Fields.value? (withPower baseline (trimFields baseline request)) "on"
    sent = some (.bool b) ∨ sent = none ∧ Fields.value? baseline "on" = some (.bool b) := by
  by_cases hs : Satisfied baseline request b
  · have himplies : ¬ implies (unmet baseline request) (!b) = true :=
      fun hopposed => hnot ⟨hs, hopposed⟩
    refine .inr ⟨?_, hs.unchanged⟩
    rw [power_of_satisfied h hon hs]
    exact if_neg himplies
  · exact .inl (power_of_not_satisfied h hon hs)

/-! ## Commits -/

theorem eq_withPower_of_body? {c : Change} {body : Fields} (h : c.body? = some body) :
    body = withPower c.baseline (trimFields c.baseline c.request) := by
  unfold body? at h
  dsimp only at h
  split at h
  · nomatch h
  · exact (Option.some.inj h).symm

/-- The requests that a commit sends are writes of the body of the change. -/
theorem sent_by_commit (c : Change) (w : World) :
    ∃ sent, (after c.commit w).sent = w.sent ++ sent ∧ ∀ s ∈ sent, ∃ body,
      c.body? = some body ∧ s.request = c.channel.compose .put c.path (.object body) := by
  obtain ⟨events, hevents, hplay⟩ := (plays_commit c
    (P := fun _ d => ∀ channel r, d.Makes (.attempt channel r) → ∃ body,
      c.body? = some body ∧ r = c.channel.compose .put c.path (.object body))
    (fun body hbody _ channel r hr => by cases hr; exact ⟨body, hbody, rfl⟩)
    (fun _ _ _ _ _ _ _ hr => nomatch hr)).exists_events
    (E := fun e => ∀ channel r, e = .attempt channel r → ∃ body,
      c.body? = some body ∧ r = c.channel.compose .put c.path (.object body))
    (fun _ _ hd _ he channel r hr => hd channel r (hr ▸ he)) (s := w) trivial
  refine ⟨(w.sends events).map (·.sent), ?_, fun s hs => ?_⟩
  · rw [← World.sent_play]
    exact congrArg World.sent hplay
  · obtain ⟨x, hx, rfl⟩ := List.mem_map.mp hs
    exact hevents _ (World.attempt_mem_of_mem_sends hx) _ _ rfl

/-- **Explicit power.** Of several settings with a power setting among them, the last of which asks
for `b`, every request that a commit sends either asks for `b`, or for no power while the light has
it, except when the setting is overruled; then it asks for the opposite. -/
theorem explicit_power_kept_unless_overruled (channel : Channel) (path : String) (baseline : Json)
    (cache : Option Cache) (setters : List Setter) (b : Bool)
    (hlast : lastPower? setters = some b) (w : World) :
    let c := (start channel path baseline cache).setAll setters
    ∃ sent, (after c.commit w).sent = w.sent ++ sent ∧ ∀ s ∈ sent, ∃ body,
      c.body? = some body ∧ s.request = channel.compose .put path (.object body) ∧
      let power := Fields.value? body "on"
      ((power = some (.bool b) ∨ power = none ∧ Fields.value? c.baseline "on" = some (.bool b)) ↔
        ¬ Overruled c.baseline c.request b) ∧
      (Overruled c.baseline c.request b → power = some (.bool !b)) := by
  intro c
  have hc : c = { start channel path baseline cache with request := applyAll setters [] } :=
    setAll_eq _ setters
  have hdistinct : Distinct c.request := by
    rw [hc]
    exact Setter.distinct_applyAll setters Fields.distinct_nil
  have hon : Fields.value? c.request "on" = some (.bool b) := by
    rw [hc]
    show Fields.value? (applyAll setters []) "on" = _
    rw [Setter.value?_applyAll_on setters Fields.distinct_nil, hlast]
    rfl
  obtain ⟨sent, hrecord, hsent⟩ := sent_by_commit c w
  refine ⟨sent, hrecord, fun s hs => ?_⟩
  obtain ⟨body, hbody, hrequest⟩ := hsent s hs
  refine ⟨body, hbody, by rwa [hc] at hrequest, ?_⟩
  rw [eq_withPower_of_body? hbody]
  refine ⟨⟨fun hkept hover => ?_, power_of_not_overruled hdistinct hon⟩,
    power_of_overruled hdistinct hon⟩
  -- the opposite power is neither the one asked for nor none
  rw [power_of_overruled hdistinct hon hover] at hkept
  cases b <;> simp at hkept

theorem brightness_kept_explicit_power :
    let channel : Channel := ⟨"192.168.2.116", 80, "a", .millis 100, 0, 0⟩
    let c := (start channel "lights/1/state" (.object [("on", .bool true)]) none).setAll
      [.on true, .brightness 100]
    lastPower? [.on true, .brightness 100] = some true ∧
      ∃ sent, (after c.commit World.start).sent = sent ∧ ∀ s ∈ sent, ∃ body,
        c.body? = some body ∧ s.request = channel.compose .put "lights/1/state" (.object body) ∧
        (Fields.value? body "on" = some (.bool true) ∨
          Fields.value? body "on" = none ∧ Fields.value? c.baseline "on" = some (.bool true)) := by
  intro channel c
  refine ⟨rfl, ?_⟩
  obtain ⟨sent, hrecord, hsent⟩ := explicit_power_kept_unless_overruled channel "lights/1/state"
    (.object [("on", .bool true)]) none [.on true, .brightness 100] true rfl World.start
  refine ⟨sent, hrecord, fun s hs => ?_⟩
  obtain ⟨body, hbody, hrequest, hkept, -⟩ := hsent s hs
  refine ⟨body, hbody, hrequest, hkept.mpr fun hover => ?_⟩
  exact absurd hover.opposed (by decide)

/-- A light that is off, asked to be off and to have another brightness, is asked to be on. -/
theorem power_inverted_by_brightness :
    let channel : Channel := ⟨"192.168.2.116", 80, "a", .millis 100, 0, 0⟩
    let baseline := Json.object [("on", .bool false), ("bri", .number (.ofUInt8 10))]
    let c := (start channel "lights/1/state" baseline none).setAll [.on false, .brightness 100]
    lastPower? [.on false, .brightness 100] = some false ∧
      (after c.commit World.start).sent.map (·.request.body) =
        ["\x7b\"bri\":100,\"on\":true\x7d"] := by
  decide +kernel

end LightBridge.Change
