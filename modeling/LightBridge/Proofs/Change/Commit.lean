import LightBridge.Proofs.Cache.View
import LightBridge.Proofs.Change.Power

/-!
# How a commit ends

A commit without a body ends at once. Otherwise the body is written, and only when all of it is
acknowledged, and the cache can be read then, the cached state is patched. Nothing else that a
commit does touches what is cached.
-/

namespace LightBridge.Change

variable {c : Change} {w : World}

/-- The ends of a commit: with nothing to write, with a write that fails or is not acknowledged in
full, and with an acknowledged write after which the cache cannot be patched, or is patched. -/
inductive Ends (c : Change) (w : World) : EStateM.Result Fault World Bool → Prop where
  | idle (hbody : c.body? = none) : Ends c w (.ok true w)
  | failed {body : Fields} {e : Fault} {u : World} (hbody : c.body? = some body)
      (hwrite : c.channel.write c.path body w = .error e u) : Ends c w (.error e u)
  | refused {body : Fields} {u : World} (hbody : c.body? = some body)
      (hwrite : c.channel.write c.path body w = .ok false u) : Ends c w (.ok false u)
  | unpatched {body : Fields} {u : World} {result : EStateM.Result Fault World Bool}
      (hbody : c.body? = some body) (hwrite : c.channel.write c.path body w = .ok true u)
      (hview : ∀ cache v, c.cache = some cache → cache.view u ≠ .ok v)
      (hresult : result = .ok true u ∨ ∃ e, result = .error e u) : Ends c w result
  | patched {body : Fields} {u : World} {cache : Cache} {s : Snapshot} {v : Json}
      (hbody : c.body? = some body) (hwrite : c.channel.write c.path body w = .ok true u)
      (hcache : c.cache = some cache) (hroot : u.snapshots.get? cache.rootNode = some s)
      (hat : s.value.at? cache.keys = some v) :
      Ends c w (.ok true
        { u with
          snapshots := u.snapshots.set cache.rootNode
            { s with value := Json.putAt (patchState body v) cache.keys s.value } })

/-! ## Patching afterwards -/

theorem writeBack_of_view {cache : Cache} {v : Json} (h : cache.view w = .ok v) (body : Fields) :
    ∃ s, w.snapshots.get? cache.rootNode = some s ∧ s.value.at? cache.keys = some v ∧
      writeBack (some cache) body w = .ok ()
        { w with
          snapshots := w.snapshots.set cache.rootNode
            { s with value := Json.putAt (patchState body v) cache.keys s.value } } := by
  obtain ⟨s, hroot, hat, hpatch⟩ := Cache.patch_of_view h (patchState body)
  rw [writeBack_eq_forgiving]
  exact ⟨s, hroot, hat, Act.forgiving_of_ok hpatch⟩

theorem writeBack_of_view_error {cache : Cache} {e : Fault} (h : cache.view w = .error e)
    (body : Fields) :
    writeBack (some cache) body w = if passedOver e then .ok () w else .error e w := by
  rw [writeBack_eq_forgiving]
  exact Act.forgiving_of_error (Cache.patch_of_view_error h (patchState body))

/-! ## Every end -/

theorem commit_of_idle (h : c.body? = none) (w : World) : c.commit w = .ok true w := by
  unfold commit
  rw [h]
  rfl

theorem commit_of_write_error {body : Fields} {e : Fault} {u : World} (hbody : c.body? = some body)
    (hwrite : c.channel.write c.path body w = .error e u) : c.commit w = .error e u := by
  unfold commit
  rw [hbody]
  simp only [bind, EStateM.bind, hwrite]

theorem commit_of_write_false {body : Fields} {u : World} (hbody : c.body? = some body)
    (hwrite : c.channel.write c.path body w = .ok false u) : c.commit w = .ok false u := by
  unfold commit
  rw [hbody]
  simp only [bind, EStateM.bind, hwrite]
  rfl

theorem commit_of_write_true {body : Fields} {u : World} (hbody : c.body? = some body)
    (hwrite : c.channel.write c.path body w = .ok true u) :
    c.commit w = ((fun _ => true) <$> writeBack c.cache body) u := by
  unfold commit
  rw [hbody]
  simp only [bind, EStateM.bind, hwrite]
  rfl

theorem ends_commit (c : Change) (w : World) : c.Ends w (c.commit w) := by
  cases hbody : c.body? with
  | none =>
    rw [commit_of_idle hbody]
    exact .idle hbody
  | some body =>
    cases hwrite : c.channel.write c.path body w with
    | error e u =>
      rw [commit_of_write_error hbody hwrite]
      exact .failed hbody hwrite
    | ok acknowledged u =>
      cases acknowledged with
      | false =>
        rw [commit_of_write_false hbody hwrite]
        exact .refused hbody hwrite
      | true =>
        rw [commit_of_write_true hbody hwrite]
        simp only [Functor.map, EStateM.map]
        cases hcache : c.cache with
        | none => exact .unpatched hbody hwrite (by simp [hcache]) (.inl rfl)
        | some cache =>
          cases hview : cache.view u with
          | ok v =>
            obtain ⟨s, hroot, hat, hback⟩ := writeBack_of_view hview body
            rw [hback]
            exact .patched hbody hwrite hcache hroot hat
          | error e =>
            have hnot : ∀ cache' v, c.cache = some cache' → cache'.view u ≠ .ok v := by
              intro cache' v hcache' hok
              rw [hcache] at hcache'
              cases hcache'
              rw [hview] at hok
              nomatch hok
            rw [writeBack_of_view_error hview body]
            cases passedOver e with
            | true => exact .unpatched hbody hwrite hnot (.inl rfl)
            | false => exact .unpatched hbody hwrite hnot (.inr ⟨e, rfl⟩)

/-! ## What is sent, and what is cached -/

/-- What a commit with a body does beside the patch is one write of the body. -/
theorem after_commit_of_body {body : Fields} (hbody : c.body? = some body) (w : World) :
    after c.commit w =
      { after (c.channel.request .put c.path (.object body)) w with
        snapshots := (after c.commit w).snapshots } := by
  have hwritten : ∀ {body' u}, c.body? = some body' →
      after (c.channel.write c.path body') w = u →
      after (c.channel.request .put c.path (.object body)) w = u := by
    intro body' u hbody' hu
    rw [hbody] at hbody'
    cases hbody'
    rw [← Channel.after_write, hu]
  have hends := ends_commit c w
  generalize hcommit : c.commit w = result at hends
  cases hends with
  | idle hnone =>
    rw [hbody] at hnone
    nomatch hnone
  | failed hb hwrite => rw [after_of_error hcommit, hwritten hb (after_of_error hwrite)]
  | refused hb hwrite => rw [after_of_ok hcommit, hwritten hb (after_of_ok hwrite)]
  | unpatched hb hwrite _ hresult =>
    have hu := hwritten hb (after_of_ok hwrite)
    rcases hresult with rfl | ⟨e, rfl⟩
    · rw [after_of_ok hcommit, hu]
    · rw [after_of_error hcommit, hu]
  | patched hb hwrite _ _ _ => rw [after_of_ok hcommit, hwritten hb (after_of_ok hwrite)]

/-- A commit writes a body: beside the patch it does what the request with the body does, and with a
finite delay between requests that request goes out. -/
structure Writes (c : Change) (body : Fields) (w : World) : Prop where
  wanted : c.body? = some body
  once : after c.commit w =
    { after (c.channel.request .put c.path (.object body)) w with
      snapshots := (after c.commit w).snapshots }
  sent : c.channel.minDelay ≠ .never → ∃ sent, sent ≠ [] ∧
    (after c.commit w).sent = w.sent ++ sent ∧
    ∀ s ∈ sent, s.request = c.channel.compose .put c.path (.object body)

theorem writes_of_body {body : Fields} (hbody : c.body? = some body) (w : World) :
    c.Writes body w := by
  refine ⟨hbody, after_commit_of_body hbody w, fun hd => ?_⟩
  obtain ⟨sent, hne, hsent, hall⟩ :=
    Channel.sent_of_request hd .put c.path (.object body) w
  refine ⟨sent, hne, ?_, hall⟩
  rw [after_commit_of_body hbody w]
  exact hsent

theorem sameCaches_of_write {channel : Channel} {path : String} {body : Fields} {u : World}
    (h : after (channel.write path body) w = u) : Channel.SameCaches w u := by
  rw [← h, Channel.after_write]
  exact channel.sameCaches_request .put path (.object body) w

end LightBridge.Change
