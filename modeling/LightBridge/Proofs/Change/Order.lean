import LightBridge.Proofs.Cache.WellFormed
import LightBridge.Proofs.Change.Overlap
import LightBridge.Proofs.Channel.Reordered
import LightBridge.Proofs.Json.Same

/-!
# The order of settings

A request has its fields in the order in which they were set, and taking a field out moves another
one. None of this makes a difference: trimming, the power that is implied, the check of the reply
and the patch of the cached state all see a request as a set of fields. Settings that leave each
field with the same value are therefore committed alike.
-/

namespace LightBridge

namespace Setter

variable {request : Fields}

theorem applyAll_perm {setters setters' : List Setter}
    (h : ∀ key, final? setters key = final? setters' key) :
    (applyAll setters []).Perm (applyAll setters' []) := by
  refine Fields.perm_of_value?_eq (distinct_applyAll setters Fields.distinct_nil)
    (distinct_applyAll setters' Fields.distinct_nil) fun key => ?_
  rw [value?_applyAll_nil, value?_applyAll_nil, h]

theorem Built.wellFormed (h : Built request) : (Json.object request).WellFormed := by
  refine Json.wellFormed_object_iff.mpr ⟨h.distinct, fun field hfield => ?_⟩
  obtain ⟨s, hs⟩ := h.written field hfield
  exact wellFormed_of_written s hs

end Setter

namespace Change

open Fields (Distinct)
open Setter (Built applyAll final?)

variable {request request' body body' state : Fields}

/-! ## Every stage sees a set of fields -/

theorem perm_trimFields (baseline : Fields) (h : Distinct request) (hp : request.Perm request') :
    (trimFields baseline request).Perm (trimFields baseline request') := by
  have hunmet : (unmet baseline request).Perm (unmet baseline request') := hp.filter _
  have hdistinct : Distinct (unmet baseline request) := distinct_unmet baseline h
  have hpower : powerUnchanged baseline (unmet baseline request') =
      powerUnchanged baseline (unmet baseline request) := by
    unfold powerUnchanged
    rw [Fields.value?_perm hunmet hdistinct]
  rw [trimFields_eq, trimFields_eq, hpower, hunmet.any_eq]
  split
  · exact Fields.perm_remove hdistinct hunmet "on"
  · exact hunmet

theorem isIdle_perm (h : Distinct request) (hp : request.Perm request') :
    isIdle request = isIdle request' := by
  rw [Bool.eq_iff_iff, isIdle_iff h, isIdle_iff (h.perm hp)]
  simp only [hp.mem_iff]

theorem impliedPower?_perm (baseline : Fields) (h : Distinct request)
    (hp : request.Perm request') :
    impliedPower? baseline request = impliedPower? baseline request' := by
  have hhas : Fields.has request = Fields.has request' := funext (Fields.has_perm h hp)
  unfold impliedPower?
  rw [hhas, Fields.value?_perm hp h "bri"]

theorem perm_withPower (baseline : Fields) (h : Distinct request) (hp : request.Perm request') :
    (withPower baseline request).Perm (withPower baseline request') := by
  unfold withPower
  rw [impliedPower?_perm baseline h hp]
  split
  · exact Fields.perm_put h hp "on" _
  · exact hp

theorem body?_perm {c c' : Change} (hbaseline : c'.baseline = c.baseline)
    (h : Distinct c.request) (hp : c.request.Perm c'.request) :
    Option.Rel List.Perm c.body? c'.body? := by
  have htrimmed := perm_trimFields c.baseline h hp
  have hdistinct := distinct_trimFields c.baseline h
  unfold body?
  dsimp only
  rw [hbaseline, isIdle_perm hdistinct htrimmed]
  split
  · exact .none
  · exact .some (perm_withPower c.baseline hdistinct htrimmed)

theorem perm_patched (hstate : Distinct state) (h : Distinct body) (hp : body.Perm body') :
    (patched body state).Perm (patched body' state) := by
  have hhas : Fields.has body = Fields.has body' := funext (Fields.has_perm h hp)
  have hput := Fields.perm_putAll hstate (h.filter isDurable) (hp.filter isDurable)
  unfold patched resultingMode?
  rw [hhas]
  dsimp only
  split
  · exact Fields.perm_put (hstate.putAll _) hput "colormode" _
  · exact hput

/-! ## Cached states -/

theorem wellFormed_patched (hstate : (Json.object state).WellFormed) (h : Built body) :
    (Json.object (patched body state)).WellFormed := by
  have hsent : ∀ field ∈ body.filter isDurable, field.2.WellFormed := fun field hfield =>
    (Json.wellFormed_object_iff.mp h.wellFormed).2 field (List.mem_of_mem_filter hfield)
  have hput := Json.wellFormed_putAll hstate hsent
  unfold patched
  dsimp only
  split
  · exact Json.wellFormed_put hput "colormode" trivial
  · exact hput

theorem same_patchState {v : Json} (hv : v.WellFormed) (h : Built body) (hp : body.Perm body') :
    (patchState body v).same (patchState body' v) = true := by
  cases v with
  | object state =>
    have hdistinct := (Json.wellFormed_object_iff.mp hv).1
    exact Json.same_of_perm (wellFormed_patched hv h) (perm_patched hdistinct h.distinct hp)
  | _ => exact Json.same_self _ hv

end Change

/-! ## Worlds -/

/-- Snapshots of one age with values that are the same but for the order of fields. -/
def Snapshot.Reordered (s s' : Snapshot) : Prop :=
  s'.fetchedAt = s.fetchedAt ∧ s.value.same s'.value = true

namespace World

variable {w w' : World}

/-- Two worlds are the same, but for the order of fields in what was sent and in what is cached. -/
structure Reordered (w w' : World) : Prop where
  rest : w' = { w with sent := w'.sent, snapshots := w'.snapshots }
  sent : List.Forall₂ Sent.Reordered w.sent w'.sent
  snapshots : ∀ node,
    Option.Rel Snapshot.Reordered (w.snapshots.get? node) (w'.snapshots.get? node)

theorem WellFormed.snapshots_reordered (h : w.WellFormed) (node : NodeId) :
    Option.Rel Snapshot.Reordered (w.snapshots.get? node) (w.snapshots.get? node) := by
  cases hs : w.snapshots.get? node with
  | none => exact .none
  | some s => exact .some ⟨rfl, Json.same_self s.value (h node s hs)⟩

theorem Beside.reordered (h : w.Beside w') (hw : w.WellFormed) : w.Reordered w' := by
  have hsnapshots : w'.snapshots = w.snapshots := by rw [h.rest]
  refine ⟨?_, h.sent, fun node => ?_⟩
  · rw [hsnapshots]
    exact h.rest
  · rw [hsnapshots]
    exact hw.snapshots_reordered node

/-- Roots may be set to values that are the same but for the order of fields. -/
theorem Beside.reordered_set (h : w.Beside w') (hw : w.WellFormed) (root : NodeId)
    {s s' : Snapshot} (hs : s.Reordered s') :
    ({ w with snapshots := w.snapshots.set root s } : World).Reordered
      { w' with snapshots := w'.snapshots.set root s' } := by
  have hsnapshots : w'.snapshots = w.snapshots := by rw [h.rest]
  refine ⟨?_, h.sent, fun node => ?_⟩
  · rw [h.rest]
  · rw [hsnapshots]
    by_cases hnode : node = root
    · rw [hnode, Table.get?_set_self, Table.get?_set_self]
      exact .some hs
    · rw [Table.get?_set_of_ne _ _ hnode, Table.get?_set_of_ne _ _ hnode]
      exact hw.snapshots_reordered node

end World

namespace Change

open Fields (Distinct)
open Setter (Built applyAll final?)

variable {body body' : Fields} {w u u' : World}

/-! ## Commits -/

/-- Patching the cached state with either of two bodies comes to the same. -/
theorem writeBack_reordered (cache : Option Cache) (hu : u.Beside u') (hw : u.WellFormed)
    (h : Built body) (hp : body.Perm body') :
    EndIn World.Reordered (writeBack cache body u) (writeBack cache body' u') := by
  cases cache with
  | none => exact .ok () (hu.reordered hw)
  | some cache =>
    have hview : cache.view u' = cache.view u :=
      Cache.view_congr (by rw [hu.rest]) (by rw [hu.rest]) cache
    cases hv : cache.view u with
    | error e =>
      rw [writeBack_of_view_error hv, writeBack_of_view_error (hview.trans hv)]
      cases passedOver e with
      | true => exact .ok () (hu.reordered hw)
      | false => exact .error e (hu.reordered hw)
    | ok v =>
      obtain ⟨s, hroot, hat, hback⟩ := writeBack_of_view hv body
      obtain ⟨s', hroot', -, hback'⟩ := writeBack_of_view (hview.trans hv) body'
      have hs : s' = s := by
        rw [hu.rest] at hroot'
        exact Option.some.inj (hroot'.symm.trans hroot)
      subst hs
      have hwell : s'.value.WellFormed := hw _ _ hroot
      have hsame := same_patchState (Json.wellFormed_at? hwell hat) h hp
      rw [hback, hback']
      exact .ok () (hu.reordered_set hw _ ⟨rfl, Json.same_putAt hwell hsame cache.keys⟩)

theorem commit_reordered {c c' : Change} (hrest : c' = { c with request := c'.request })
    (h : Built c.request) (hp : c.request.Perm c'.request) (hw : w.WellFormed) :
    EndIn World.Reordered (c.commit w) (c'.commit w) := by
  have hbaseline : c'.baseline = c.baseline := by rw [hrest]
  have hbody := body?_perm hbaseline h.distinct hp
  have hchannel : c'.channel = c.channel := by rw [hrest]
  have hpath : c'.path = c.path := by rw [hrest]
  have hcache : c'.cache = c.cache := by rw [hrest]
  generalize hb : c.body? = b at hbody
  generalize hb' : c'.body? = b' at hbody
  cases hbody with
  | none =>
    rw [commit_of_idle hb, commit_of_idle hb']
    exact .ok true ((World.Beside.refl w).reordered hw)
  | @some body body' hperm =>
    have hbuilt : Built body := built_body h hb
    have hsame := Json.same_of_perm hbuilt.wellFormed hperm
    have hwrites := c.channel.reorders_write c.path hsame hperm w w (.refl w)
    generalize hwrite : c.channel.write c.path body w = result at hwrites
    generalize hwrite' : c.channel.write c.path body' w = result' at hwrites
    rw [← hchannel, ← hpath] at hwrite'
    have hkept : ∀ {u}, after (c.channel.write c.path body) w = u → u.WellFormed :=
      fun hu => hw.of_sameCaches (sameCaches_of_write hu)
    cases hwrites with
    | error e hu =>
      rw [commit_of_write_error hb hwrite, commit_of_write_error hb' hwrite']
      exact .error e (hu.reordered (hkept (after_of_error hwrite)))
    | ok acknowledged hu =>
      have hwell := hkept (after_of_ok hwrite)
      cases acknowledged with
      | false =>
        rw [commit_of_write_false hb hwrite, commit_of_write_false hb' hwrite']
        exact .ok false (hu.reordered hwell)
      | true =>
        have hback := writeBack_reordered c.cache hu hwell hbuilt hperm
        rw [commit_of_write_true hb hwrite, commit_of_write_true hb' hwrite', hcache]
        simp only [Functor.map, EStateM.map]
        generalize writeBack c.cache body _ = back at hback ⊢
        generalize writeBack c.cache body' _ = back' at hback ⊢
        cases hback with
        | ok _ hr => exact .ok true hr
        | error e hr => exact .error e hr

/-- **Order of settings.** Two changes begin alike and get settings that leave every field with the
same value, where the default transition time counts as none. Committed in the same world, with well
formed values cached, either both send nothing, or they write bodies that are the same objects; they
end with the same answer or the same error; and what they send and leave behind is the same but for
the order of fields. -/
theorem setting_order_irrelevant (channel : Channel) (path : String) (baseline : Json)
    (cache : Option Cache) {setters setters' : List Setter}
    (hfinal : ∀ key, final? setters key = final? setters' key) (hw : w.WellFormed) :
    let c := (start channel path baseline cache).setAll setters
    let c' := (start channel path baseline cache).setAll setters'
    (c.commit w = .ok true w ∧ c'.commit w = .ok true w ∨
      ∃ body body', c.Writes body w ∧ c'.Writes body' w ∧
        (Json.object body).same (.object body') = true) ∧
      outcome c.commit w = outcome c'.commit w ∧
      (after c.commit w).Reordered (after c'.commit w) := by
  intro c c'
  have hc : c = { start channel path baseline cache with request := applyAll setters [] } :=
    setAll_eq _ setters
  have hc' : c' = { start channel path baseline cache with request := applyAll setters' [] } :=
    setAll_eq _ setters'
  have hrest : c' = { c with request := c'.request } := by rw [hc, hc']
  have hbuilt : Built c.request := built_setAll setters rfl
  have hperm : c.request.Perm c'.request := by
    rw [hc, hc']
    exact Setter.applyAll_perm hfinal
  have hends := commit_reordered hrest hbuilt hperm hw
  refine ⟨?_, hends.outcome_eq, hends.after⟩
  have hbaseline : c'.baseline = c.baseline := by rw [hrest]
  have hbody := body?_perm hbaseline hbuilt.distinct hperm
  generalize hb : c.body? = b at hbody
  generalize hb' : c'.body? = b' at hbody
  cases hbody with
  | none => exact .inl ⟨commit_of_idle hb w, commit_of_idle hb' w⟩
  | @some body body' hp =>
    exact .inr ⟨body, body', writes_of_body hb w, writes_of_body hb' w,
      Json.same_of_perm (built_body hbuilt hb).wellFormed hp⟩

/-- A brightness that is set twice, and a transition time that is taken back, make no difference,
nor does which of brightness and hue is set first. -/
theorem lamp_set_in_two_orders :
    let setters := [Setter.brightness 10, .transition 7, .hue 9000, .brightness 200, .transition 4]
    let setters' := [Setter.hue 9000, .brightness 200]
    let w := ({ World.start with
      transports := Table.empty.set 0 (Script.ofLines 0 [
        .always .get "/api/user/lights" "\x7b\"1\":\x7b\"state\":\x7b\"bri\":100\x7d\x7d\x7d",
        .always .put "/api/user/lights/1/state" ("[\x7b\"success\":\x7b" ++
          "\"/lights/1/state/bri\":200,\"/lights/1/state/hue\":9000," ++
          "\"/lights/1/state/on\":true\x7d\x7d]")])
      held := [0, 1, 2] } : World).enactAll [.fetch 0 "lights" Lamp.channel .never]
    let c := (start Lamp.channel "/lights/1/state" (.object []) (some Lamp.cache)).setAll setters
    let c' := (start Lamp.channel "/lights/1/state" (.object []) (some Lamp.cache)).setAll setters'
    (∀ key, final? setters key = final? setters' key) ∧ w.WellFormed ∧
      (outcome c.commit w).toOption = some true ∧ outcome c.commit w = outcome c'.commit w ∧
      (after c.commit w).Reordered (after c'.commit w) := by
  intro setters setters' w c c'
  have hfinal : ∀ key, final? setters key = final? setters' key := by
    intro key
    have hbuilt : applyAll setters [] = [("bri", Setter.level 200), ("hue", Setter.word 9000)] :=
      rfl
    have hbuilt' : applyAll setters' [] = [("hue", Setter.word 9000), ("bri", Setter.level 200)] :=
      rfl
    have hdistinct := Setter.distinct_applyAll setters Fields.distinct_nil
    rw [hbuilt] at hdistinct
    rw [← Setter.value?_applyAll_nil, ← Setter.value?_applyAll_nil, hbuilt, hbuilt']
    exact Fields.value?_perm (List.Perm.swap _ _ _) hdistinct key
  have hw : w.WellFormed := by
    refine (World.WellFormed.of_nothing rfl).enactAll fun d hd => ?_
    rw [List.mem_singleton.mp hd]
    trivial
  have hok : (outcome c.commit w).toOption = some true := by decide +kernel
  exact ⟨hfinal, hw, hok,
    (setting_order_irrelevant Lamp.channel "/lights/1/state" (.object []) (some Lamp.cache) hfinal
      hw).2⟩

end Change

end LightBridge
