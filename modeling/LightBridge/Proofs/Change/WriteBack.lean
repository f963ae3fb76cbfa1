import LightBridge.Proofs.Change.Difference

/-!
# What a commit leaves in the cache

The cached state is patched by commits that the bridge acknowledged in full, and by no others. The
patch sets what was sent and stays, adjusts the colour mode, and leaves everything else alone.
-/

namespace LightBridge.Change

open Fields (Distinct value?_put value?_put_of_ne value?_putAll value?_filter)
open Setter (Built transitionKey)

variable {body state : Fields} {key : String}

/-! ## Fields of the patched state -/

/-- A field that stays in the state once it is sent: neither a transition time nor an increment. -/
def Lasting (key : String) : Prop := key ≠ transitionKey ∧ ¬ "_inc".toList <:+ key.toList

theorem isDurable_iff (value : Json) : isDurable (key, value) = true ↔ Lasting key := by
  rw [isDurable, Text.endsWith, Bool.and_eq_true, bne_iff_ne, Bool.not_eq_true',
    ← Bool.not_eq_true, List.isSuffixOf_iff_suffix]
  rfl

theorem value?_durable (h : Distinct body) (key : String) :
    Fields.value? (body.filter isDurable) key =
      (Fields.value? body key).filter fun value => isDurable (key, value) :=
  value?_filter h isDurable key

theorem value?_durable_of_lasting (h : Distinct body) (hkey : Lasting key) :
    Fields.value? (body.filter isDurable) key = Fields.value? body key := by
  rw [value?_durable h]
  cases Fields.value? body key with
  | none => rfl
  | some value => rw [Option.filter_some, if_pos ((isDurable_iff value).mpr hkey)]

theorem value?_durable_of_not_lasting (h : Distinct body) (hkey : ¬ Lasting key) :
    Fields.value? (body.filter isDurable) key = none := by
  rw [value?_durable h]
  cases Fields.value? body key with
  | none => rfl
  | some value => rw [Option.filter_some, if_neg (mt (isDurable_iff value).mp hkey)]

theorem value?_patched_of_ne (h : Distinct body) (state : Fields) (hkey : key ≠ "colormode") :
    Fields.value? (patched body state) key =
      (Fields.value? (body.filter isDurable) key).or (Fields.value? state key) := by
  have hput := value?_putAll (h.filter isDurable) state key
  unfold patched
  dsimp only
  cases resultingMode? body with
  | none => exact hput
  | some mode =>
    dsimp only
    rw [value?_put_of_ne _ _ hkey, hput]

theorem value?_patched_of_lasting (h : Distinct body) (state : Fields) (hkey : key ≠ "colormode")
    (hlasting : Lasting key) :
    Fields.value? (patched body state) key =
      (Fields.value? body key).or (Fields.value? state key) := by
  rw [value?_patched_of_ne h state hkey, value?_durable_of_lasting h hlasting]

theorem value?_patched_colormode (h : Distinct body) (state : Fields)
    (hnot : Fields.value? body "colormode" = none) :
    Fields.value? (patched body state) "colormode" = modeAfter state body := by
  have hdurable : Fields.value? (body.filter isDurable) "colormode" = none := by
    rw [value?_durable h, hnot]
    rfl
  have hput := value?_putAll (h.filter isDurable) state "colormode"
  rw [hdurable, Option.none_or] at hput
  unfold patched modeAfter
  dsimp only
  cases resultingMode? body with
  | none => exact hput
  | some mode => exact Fields.value?_put_self _ _ _

/-- What a write leaves of a state: the fields that were sent and stay have the value sent, the
colour mode is that of the first colour field sent, and all else is as before. -/
structure Patched (body state after : Fields) : Prop where
  sent : ∀ key value, (key, value) ∈ body → Lasting key → Fields.value? after key = some value
  mode : ∀ key mode, deciding? body = some key → impliedMode? key = some mode →
    Fields.value? after "colormode" = some (.string mode)
  sameMode : (∀ key ∈ colorKeys, Fields.has body key = false) →
    Fields.value? after "colormode" = Fields.value? state "colormode"
  rest : ∀ key, key ≠ "colormode" → (∀ value, (key, value) ∈ body → ¬ Lasting key) →
    Fields.value? after key = Fields.value? state key

theorem key_ne_colormode (h : Built body) {value : Json} (hfield : (key, value) ∈ body) :
    key ≠ "colormode" := by
  obtain ⟨s, hs⟩ := h.written _ hfield
  rintro rfl
  cases s with
  | transition tenths =>
    change _ ∈ (if tenths = Setter.defaultTransition then _ else _) at hs
    split at hs <;> simp [transitionKey] at hs
  | _ => simp [Setter.fields] at hs

theorem value?_colormode_of_built (h : Built body) : Fields.value? body "colormode" = none := by
  cases hvalue : Fields.value? body "colormode" with
  | none => rfl
  | some value =>
    exact absurd rfl (key_ne_colormode h ((Fields.value?_eq_some_iff h.distinct).mp hvalue))

theorem patched_spec (h : Built body) (state : Fields) :
    Patched body state (patched body state) := by
  have hcolormode := value?_patched_colormode h.distinct state (value?_colormode_of_built h)
  refine ⟨fun key value hfield hlasting => ?_, fun key mode hkey hmode => ?_, fun hno => ?_,
    fun key hkey hnot => ?_⟩
  · have hvalue := (Fields.value?_eq_some_iff h.distinct).mpr hfield
    rw [value?_patched_of_lasting h.distinct state (key_ne_colormode h hfield) hlasting, hvalue]
    rfl
  · rw [hcolormode, modeAfter, resultingMode?_eq, hkey, Option.bind_some, hmode]
  · have hdeciding : deciding? body = none := List.find?_eq_none.mpr (by simpa using hno)
    rw [hcolormode, modeAfter, resultingMode?_eq, hdeciding]
    rfl
  · have hdurable : Fields.value? (body.filter isDurable) key = none := by
      cases hvalue : Fields.value? body key with
      | none =>
        rw [value?_durable h.distinct, hvalue]
        rfl
      | some value =>
        have hfield := (Fields.value?_eq_some_iff h.distinct).mp hvalue
        exact value?_durable_of_not_lasting h.distinct (hnot value hfield)
    rw [value?_patched_of_ne h.distinct state hkey, hdurable, Option.none_or]

/-! ## Bodies -/

theorem built_withPower (h : Built fields) (baseline : Fields) :
    Built (withPower baseline fields) := by
  unfold withPower
  cases impliedPower? baseline fields with
  | none => exact h
  | some power => exact h.apply (.on power)

theorem built_body {c : Change} (h : Built c.request) {body : Fields} (hbody : c.body? = some body) :
    Built body := by
  rw [eq_withPower_of_body? hbody]
  refine built_withPower (h.of_subset (distinct_trimFields c.baseline h.distinct) ?_) c.baseline
  exact fun _ => mem_request_of_mem_trimFields c.baseline h.distinct

/-! ## Commits -/

theorem sameCaches_of_not_patched {c : Change} {w : World}
    (h : (after c.commit w).sent = w.sent ∨ outcome c.commit w ≠ .ok true) :
    Channel.SameCaches w (after c.commit w) := by
  have hends := ends_commit c w
  generalize hcommit : c.commit w = result at hends
  cases hends with
  | idle =>
    rw [after_of_ok hcommit]
    exact Channel.SameCaches.refl w
  | failed _ hwrite =>
    rw [after_of_error hcommit]
    exact sameCaches_of_write (after_of_error hwrite)
  | refused _ hwrite =>
    rw [after_of_ok hcommit]
    exact sameCaches_of_write (after_of_ok hwrite)
  | unpatched _ hwrite _ hresult =>
    have hsame := sameCaches_of_write (after_of_ok hwrite)
    rcases hresult with rfl | ⟨e, rfl⟩
    · rwa [after_of_ok hcommit]
    · rwa [after_of_error hcommit]
  | patched _ hwrite _ _ _ =>
    -- an acknowledged write sent something, and the answer is true
    have hwritten := Channel.sent_ne_of_write_ok hwrite
    rcases h with hsent | houtcome
    · rw [after_of_ok hcommit] at hsent
      exact absurd hsent hwritten
    · exact absurd (outcome_of_ok hcommit) houtcome

/-- A commit with a body that is acknowledged in full patches what its cache stands for. -/
theorem commit_patches {c : Change} {cache : Cache} {body state : Fields} {w : World}
    (hbody : c.body? = some body) (hok : outcome c.commit w = .ok true)
    (hcache : c.cache = some cache) (hview : cache.view w = .ok (.object state)) :
    ∃ s, w.snapshots.get? cache.rootNode = some s ∧
      s.value.at? cache.keys = some (.object state) ∧ (after c.commit w).held = w.held ∧
      (after c.commit w).snapshots = w.snapshots.set cache.rootNode
        { s with value := Json.putAt (.object (patched body state)) cache.keys s.value } := by
  have hends := ends_commit c w
  generalize hcommit : c.commit w = result at hends
  cases hends with
  | idle hnone =>
    rw [hbody] at hnone
    nomatch hnone
  | failed =>
    rw [outcome_of_error hcommit] at hok
    nomatch hok
  | refused =>
    rw [outcome_of_ok hcommit] at hok
    nomatch hok
  | unpatched _ hwrite hnot =>
    -- the cache can be read after the write as before
    have hsame := sameCaches_of_write (after_of_ok hwrite)
    have hview' := Cache.view_congr hsame.held hsame.snapshots cache
    rw [hview] at hview'
    exact absurd hview' (hnot cache _ hcache)
  | @patched body' u cache' s v hbody' hwrite hcache' hroot hat =>
    rw [hbody] at hbody'
    cases hbody'
    rw [hcache] at hcache'
    cases hcache'
    have hsame := sameCaches_of_write (after_of_ok hwrite)
    rw [hsame.snapshots] at hroot
    obtain ⟨-, s', hroot', hat'⟩ := Cache.view_eq_ok_iff.mp hview
    rw [hroot] at hroot'
    cases hroot'
    rw [hat] at hat'
    cases hat'
    rw [after_of_ok hcommit]
    refine ⟨s, hroot, hat, hsame.held, ?_⟩
    dsimp only
    rw [hsame.snapshots]
    rfl

/-- **Write-back.** Whatever was asked of a change with a cache: when its commit sends nothing, or
does not answer that all was acknowledged, every root holds what it held before. When the commit
sends something and answers so, and the cache stands for an object, then that object alone is
replaced, by what the write leaves of it; whatever else can be read is as before, and no root counts
as fetched anew. -/
theorem write_back_all_or_nothing (channel : Channel) (path : String) (baseline : Json)
    (cache : Cache) (operations : List Operation) (w : World) :
    let c := (start channel path baseline (some cache)).performAll operations
    let w' := after c.commit w
    (w'.sent = w.sent ∨ outcome c.commit w ≠ .ok true → w'.snapshots = w.snapshots) ∧
    ∀ state, w'.sent ≠ w.sent → outcome c.commit w = .ok true →
      outcome cache.peek w = .ok (.object state) →
      ∃ body sent after s, w'.sent = w.sent ++ sent ∧
        (∀ r ∈ sent, r.request = channel.compose .put path (.object body)) ∧
        Patched body state after ∧
        w.snapshots.get? cache.rootNode = some s ∧
        w'.snapshots = w.snapshots.set cache.rootNode
          { s with value := Json.putAt (.object after) cache.keys s.value } ∧
        outcome cache.peek w' = .ok (.object after) ∧
        (∀ other : Cache, (other.rootNode = cache.rootNode → Cache.Apart cache.keys other.keys) →
          outcome other.peek w' = outcome other.peek w) ∧
        ∀ node, (w'.snapshots.get? node).map (·.fetchedAt) =
          (w.snapshots.get? node).map (·.fetchedAt) := by
  intro c w'
  refine ⟨fun h => (sameCaches_of_not_patched h).snapshots, fun state hsent hok hpeek => ?_⟩
  rw [Cache.outcome_peek] at hpeek
  obtain ⟨request, hbuilt, hc⟩ :=
    performAll_built (c := start channel path baseline (some cache)) Setter.built_nil operations
  have hc : c = { start channel path baseline (some cache) with request } := hc
  have hcache : c.cache = some cache := by rw [hc]; rfl
  have hrequest : Built c.request := by rw [hc]; exact hbuilt
  -- a change without a body would have sent nothing
  obtain ⟨body, hbody⟩ : ∃ body, c.body? = some body := by
    cases hbody : c.body? with
    | none => exact absurd (congrArg World.sent (after_of_ok (commit_of_idle hbody w))) hsent
    | some body => exact ⟨body, rfl⟩
  obtain ⟨s, hroot, hat, hheld, hset⟩ := commit_patches hbody hok hcache hpeek
  obtain ⟨sent, hrecord, hsent⟩ := sent_by_commit c w
  have hreplaced := Cache.replaced_of_set hpeek hroot hat hheld hset
  simp only [Cache.outcome_peek]
  refine ⟨body, sent, patched body state, s, hrecord, fun r hr => ?_,
    patched_spec (built_body hrequest hbody) state, hroot, hset, hreplaced.self, hreplaced.others,
    hreplaced.fetchedAt⟩
  obtain ⟨body', hbody', hr'⟩ := hsent r hr
  rw [hbody] at hbody'
  cases hbody'
  rwa [hc] at hr'

end LightBridge.Change
