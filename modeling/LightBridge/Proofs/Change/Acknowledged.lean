import LightBridge.Proofs.Change.Overlap

/-!
# Commits that the bridge acknowledged

A reply accepts a body when nothing in it is refused and every field is acknowledged. The commit has
then done its work, and only the cached state is left to be patched. A cache that was given up, or
that never held anything, is passed over; a cache whose object is gone from what its root holds
makes the commit fail after all.
-/

namespace LightBridge

variable {path : String} {fields : Fields} {reply : Json} {w u : World}

namespace Reply

/-- A reply accepts what was written to a path: it is an array without a refusal, and acknowledges
every field with an agreeing value. -/
structure Accepts (path : String) (fields : Fields) (reply : Json) : Prop where
  unrefused : ∃ entries, reply = .array entries ∧ ∀ entry ∈ entries, entry.get? "error" = none
  acknowledged : ∀ field ∈ fields, ∃ value,
    acknowledged? reply (fieldAddress path field.1) = some value ∧ value.agrees field.2 = true

theorem check_array_eq_ok_iff {entries : List Json} :
    check (.array entries) = .ok () ↔ ∀ entry ∈ entries, entry.get? "error" = none := by
  rw [← List.findSome?_eq_none_iff, check, refusal?]
  cases entries.findSome? (·.get? "error") <;> simp

theorem acknowledgesAll_iff :
    acknowledgesAll path fields reply = true ↔ ∀ field ∈ fields, ∃ value,
      acknowledged? reply (fieldAddress path field.1) = some value ∧
        value.agrees field.2 = true := by
  rw [acknowledgesAll, List.all_eq_true]
  refine forall₂_congr fun field _ => ?_
  rw [acknowledges]
  cases acknowledged? reply (fieldAddress path field.1) <;> simp

theorem validate_eq_true_iff :
    validate path fields reply = .ok true ↔ Accepts path fields reply := by
  unfold validate
  cases reply with
  | array entries =>
    cases hcheck : check (.array entries) with
    | error e =>
      have hnot : ¬ ∀ entry ∈ entries, entry.get? "error" = none := by
        rw [← check_array_eq_ok_iff, hcheck]
        exact nofun
      refine iff_of_false nofun fun h => hnot ?_
      obtain ⟨_, harray, hall⟩ := h.unrefused
      cases harray
      exact hall
    | ok _ =>
      have hall := check_array_eq_ok_iff.mp hcheck
      show Except.ok (acknowledgesAll path fields (.array entries)) = .ok true ↔ _
      rw [Except.ok.injEq, acknowledgesAll_iff]
      exact ⟨fun h => ⟨⟨entries, rfl, hall⟩, h⟩, fun h => h.acknowledged⟩
  | _ =>
    refine iff_of_false nofun fun h => ?_
    obtain ⟨_, harray, -⟩ := h.unrefused
    nomatch harray

end Reply

theorem Channel.write_eq_ok_true_iff {c : Channel} :
    c.write path fields w = .ok true u ↔
      ∃ reply, c.request .put path (.object fields) w = .ok reply u ∧
        Reply.Accepts path fields reply := by
  constructor
  · intro h
    obtain ⟨reply, v, hrequest, hvalidate⟩ := exists_of_bind_ok h
    have hworld : u = v := by rw [← after_of_ok hvalidate, after_ofExcept]
    have hresult : Reply.validate path fields reply = .ok true := by
      rw [← outcome_of_ok hvalidate, outcome_ofExcept]
    exact ⟨reply, hworld ▸ hrequest, Reply.validate_eq_true_iff.mp hresult⟩
  · rintro ⟨reply, hrequest, haccepts⟩
    unfold write
    simp only [bind, EStateM.bind, hrequest, Reply.validate_eq_true_iff.mpr haccepts]
    rfl

namespace Change

/-! ## The patch that is left -/

variable {cache : Cache} {body : Fields}

theorem writeBack_of_not_found {lost : String} (h : cache.view w = .error (.notFound lost))
    (body : Fields) : writeBack (some cache) body w = .error (.notFound lost) w :=
  writeBack_of_view_error h body

/-- Unless its object is gone, a cache is no obstacle. -/
theorem writeBack_of_not_gone (h : ¬ cache.Gone w) (body : Fields) :
    ∃ u, writeBack (some cache) body w = .ok () u := by
  cases hview : cache.view w with
  | ok v =>
    obtain ⟨s, -, -, hback⟩ := writeBack_of_view hview body
    exact ⟨_, hback⟩
  | error e =>
    have hback := writeBack_of_view_error hview body
    rcases Cache.view_error hview with ⟨path, rfl⟩ | ⟨path, rfl⟩ | ⟨-, hgone⟩
    · exact ⟨w, hback⟩
    · exact ⟨w, hback⟩
    · exact absurd hgone h

/-! ## Commits -/

variable {c : Change}

theorem commit_of_accepted (hbody : c.body? = some body)
    (hreply : c.channel.request .put c.path (.object body) w = .ok reply u)
    (haccepts : Reply.Accepts c.path body reply) :
    c.commit w = ((fun _ => true) <$> writeBack c.cache body) u :=
  commit_of_write_true hbody (Channel.write_eq_ok_true_iff.mpr ⟨reply, hreply, haccepts⟩)

theorem commit_of_gone (hbody : c.body? = some body)
    (hreply : c.channel.request .put c.path (.object body) w = .ok reply u)
    (haccepts : Reply.Accepts c.path body reply) (hcache : c.cache = some cache)
    (hgone : cache.Gone w) :
    ∃ lost, outcome cache.peek w = .error (.notFound lost) ∧
      c.commit w = .error (.notFound lost) u := by
  obtain ⟨hsnapshots, hheld⟩ := Channel.sameCaches_of_request hreply
  obtain ⟨lost, hlost⟩ := Cache.view_of_gone hgone
  refine ⟨lost, by rw [Cache.outcome_peek, hlost], ?_⟩
  have hview : cache.view u = .error (.notFound lost) := by
    rw [Cache.view_congr hheld hsnapshots, hlost]
  rw [commit_of_accepted hbody hreply haccepts, hcache]
  simp only [Functor.map, EStateM.map, writeBack_of_not_found hview]

theorem commit_of_no_gone (hbody : c.body? = some body)
    (hreply : c.channel.request .put c.path (.object body) w = .ok reply u)
    (haccepts : Reply.Accepts c.path body reply)
    (hnot : ∀ cache, c.cache = some cache → ¬ cache.Gone w) :
    outcome c.commit w = .ok true := by
  have hback : ∃ u', writeBack c.cache body u = .ok () u' := by
    cases hcache : c.cache with
    | none => exact ⟨u, rfl⟩
    | some cache =>
      -- the request leaves what is cached alone
      obtain ⟨hsnapshots, hheld⟩ := Channel.sameCaches_of_request hreply
      have hstill : ¬ cache.Gone u := by
        rw [Cache.gone_congr hheld hsnapshots]
        exact hnot cache hcache
      exact writeBack_of_not_gone hstill body
  obtain ⟨u', hu'⟩ := hback
  have hcommit : c.commit w = .ok true u' := by
    rw [commit_of_accepted hbody hreply haccepts]
    simp only [Functor.map, EStateM.map, hu']
  exact outcome_of_ok hcommit

/-- **Acknowledged.** Whatever was asked of a change, and whatever has happened since to its cache:
when its body was sent and the reply accepts it, then the commit answers that all was acknowledged
exactly if the object of its cache is not gone from what the root holds. If it is gone, the commit
fails as reading the cache does, after the bridge has taken over everything. -/
theorem acknowledged_commit_succeeds_iff {c : Change} {body : Fields} {w u : World} {reply : Json}
    (hbody : c.body? = some body)
    (hreply : c.channel.request .put c.path (.object body) w = .ok reply u)
    (haccepts : Reply.Accepts c.path body reply) :
    (outcome c.commit w = .ok true ↔ ∀ cache, c.cache = some cache → ¬ cache.Gone w) ∧
      ∀ cache, c.cache = some cache → cache.Gone w →
        ∃ lost, outcome cache.peek w = .error (.notFound lost) ∧
          c.commit w = .error (.notFound lost) u := by
  refine ⟨⟨fun hok cache hcache hgone => ?_, commit_of_no_gone hbody hreply haccepts⟩,
    fun cache hcache hgone => commit_of_gone hbody hreply haccepts hcache hgone⟩
  obtain ⟨lost, -, hcommit⟩ := commit_of_gone hbody hreply haccepts hcache hgone
  rw [outcome_of_error hcommit] at hok
  nomatch hok

namespace Lamp

/-- The lamp is to get brightness 200, and its bridge accepts that. -/
def brighter : Change :=
  (start channel "/lights/1/state" (.object initial) (some Lamp.cache)).setAll [.brightness 200]

theorem write_brighter_ok {w : World}
    (h : (outcome (channel.write "/lights/1/state" [("bri", Setter.level 200)]) w).toOption =
      some true) :
    ∃ reply u, channel.request .put "/lights/1/state" (.object [("bri", Setter.level 200)]) w =
      .ok reply u ∧ Reply.Accepts "/lights/1/state" [("bri", Setter.level 200)] reply := by
  cases hwrite : channel.write "/lights/1/state" [("bri", Setter.level 200)] w with
  | error e u =>
    rw [outcome_of_error hwrite] at h
    nomatch h
  | ok acknowledged u =>
    rw [outcome_of_ok hwrite] at h
    cases h
    obtain ⟨reply, hreply⟩ := Channel.write_eq_ok_true_iff.mp hwrite
    exact ⟨reply, u, hreply⟩

end Lamp

/-- A lamp whose cache was given up in the meantime. -/
theorem commit_succeeds_when_detached :
    let w := Lamp.world.settle []
    Lamp.brighter.body? = some [("bri", Setter.level 200)] ∧
      (∃ reply u, Lamp.channel.request .put "/lights/1/state"
        (.object [("bri", Setter.level 200)]) w = .ok reply u ∧
          Reply.Accepts "/lights/1/state" [("bri", Setter.level 200)] reply) ∧
      outcome Lamp.brighter.commit w = .ok true := by
  intro w
  have hbody : Lamp.brighter.body? = some [("bri", Setter.level 200)] := by rfl
  obtain ⟨reply, u, hreply, haccepts⟩ := Lamp.write_brighter_ok (w := w) (by decide +kernel)
  refine ⟨hbody, ⟨reply, u, hreply, haccepts⟩, ?_⟩
  refine (acknowledged_commit_succeeds_iff hbody hreply haccepts).1.mpr fun cache hcache hgone => ?_
  cases hcache
  have hdetached : ¬ Lamp.cache.Live w := by decide
  exact hdetached hgone.1

/-- A lamp that is no longer in what its root holds, since an empty collection was fetched in the
meantime: all is acknowledged, and the commit fails. -/
theorem commit_fails_when_gone :
    let w := Lamp.world.step (.store 0 (.object []))
    outcome Lamp.cache.peek Lamp.world = .ok (.object Lamp.initial) ∧
      (∃ body reply u, Lamp.brighter.body? = some body ∧
        Lamp.channel.request .put "/lights/1/state" (.object body) w = .ok reply u ∧
          Reply.Accepts "/lights/1/state" body reply) ∧
      outcome Lamp.brighter.commit w = .error (.notFound "lights/1") := by
  intro w
  have hbody : Lamp.brighter.body? = some [("bri", Setter.level 200)] := by rfl
  obtain ⟨reply, u, hreply, haccepts⟩ := Lamp.write_brighter_ok (w := w) (by decide +kernel)
  refine ⟨rfl, ⟨_, reply, u, hbody, hreply, haccepts⟩, ?_⟩
  have hgone : Lamp.cache.Gone w := ⟨by decide, _, rfl, rfl⟩
  obtain ⟨lost, hpeek, hcommit⟩ := commit_of_gone hbody hreply haccepts rfl hgone
  have hread : outcome Lamp.cache.peek w = .error (.notFound "lights/1") := rfl
  cases hread.symm.trans hpeek
  exact outcome_of_error hcommit

end Change

end LightBridge
