import LightBridge.Proofs.Cache.Detached
import LightBridge.Proofs.Channel.Retry
import LightBridge.Proofs.Session.Fetches

/-!
# Cut links

A view fails as detached exactly when a link above it is cut, whatever it is asked for: through links
that hold, a fetch fails with the faults of its request or with a refusal, and what is held is either
there or missing.
-/

namespace LightBridge

variable {path : String} {w : World}

/-- An operation fails because a link is cut. -/
def Act.Detaches {α : Type} (x : Act α) (w : World) : Prop :=
  ∃ path, outcome x w = .error (.detached path)

/-! ## Requests -/

theorem Concludes.ne_detached {last : Except Failure String} {result : Except Fault Json}
    (h : Concludes last result) : result ≠ .error (.detached path) := by
  cases h <;> rintro ⟨⟩

/-- A request knows nothing of caches. -/
theorem Channel.request_ne_detached (c : Channel) (method : Method) (address : String) (body : Json) :
    outcome (c.request method address body) w ≠ .error (.detached path) := by
  cases hd : c.minDelay with
  | never =>
    rw [outcome_of_error (request_of_never hd method address body w)]
    rintro ⟨⟩
  | millis d =>
    by_cases htransient : Transient (c.reply (c.compose method address body) w)
    · exact (concludes_of_outcome_deliver (outcome_deliver_of_transient hd htransient)).ne_detached
    · exact (concludes_of_outcome_deliver (outcome_deliver_of_not_transient hd htransient)).ne_detached

theorem Reply.check_ne_detached (reply : Json) : check reply ≠ .error (.detached path) := by
  unfold check
  split <;> rintro ⟨⟩

namespace Cache

variable {c : Cache}

theorem fetch_ne_detached (node : NodeId) (address : String) (channel : Channel) :
    outcome (fetch node address channel) w ≠ .error (.detached path) := by
  have hrequest : outcome (channel.request .get address (.object [])) w ≠ .error (.detached path) :=
    channel.request_ne_detached _ _ _
  rw [outcome_fetch, answer]
  cases hreply : outcome (channel.request .get address (.object [])) w with
  | error e =>
    rintro h
    cases h
    exact hrequest hreply
  | ok reply =>
    have hcheck : Reply.check reply ≠ .error (.detached path) := Reply.check_ne_detached reply
    simp only [bind, Except.bind]
    cases h : Reply.check reply with
    | error e =>
      rintro h'
      cases h'
      exact hcheck h
    | ok _ => rintro ⟨⟩

/-! ## Asking a cache -/

theorem view_ne_detached (hlive : c.Live w) : c.view w ≠ .error (.detached path) := by
  rw [view, linked_eq_ok_iff.mpr hlive]
  dsimp only
  split
  · rintro ⟨⟩
  · intro h
    obtain ⟨_, h⟩ := extract_error h
    cases h

theorem peek_ne_detached (hlive : c.Live w) : outcome c.peek w ≠ .error (.detached path) := by
  rw [outcome_peek]
  exact view_ne_detached hlive

theorem value_ne_detached (hlive : c.Live w) : outcome c.value w ≠ .error (.detached path) := by
  have hlinked := linked_eq_ok_iff.mpr hlive
  cases hstale : c.rootStale w with
  | false =>
    rw [outcome, value_of_fresh (fresh_of_not_stale hlinked hstale)]
    exact peek_ne_detached hlive
  | true =>
    rw [outcome, value_of_stale hlinked hstale]
    simp only [bind, EStateM.bind]
    have hfails : outcome (fetch c.rootNode c.rootPath c.rootChannel) w ≠ .error (.detached path) :=
      fetch_ne_detached _ _ _
    have hheld := held_fetch c.rootNode c.rootPath c.rootChannel w
    cases hfetch : fetch c.rootNode c.rootPath c.rootChannel w with
    | error e u =>
      rw [outcome_of_error hfetch] at hfails
      rintro h
      cases h
      exact hfails rfl
    | ok _ u =>
      -- a fetch gives up none of the caches above
      rw [after_of_ok hfetch] at hheld
      have hlive' : c.Live u := by rwa [← linked_eq_ok_iff, linked_congr hheld, linked_eq_ok_iff]
      exact peek_ne_detached hlive'

theorem fetchedAt_eq (c : Cache) (w : World) :
    c.fetchedAt w =
      match c.linked w with
      | .error e => .error e w
      | .ok () => .ok ((w.snapshots.get? c.rootNode).map (·.fetchedAt)) w :=
  eq_of_asks_above (fun _ _ _ _ => rfl) fun _ _ _ => rfl

theorem channel_eq (c : Cache) (w : World) :
    c.channel w =
      match c.linked w with
      | .error e => .error e w
      | .ok () => .ok c.rootChannel w :=
  eq_of_asks_above (fun _ _ _ _ => rfl) fun _ _ _ => rfl

theorem outcome_map {α β : Type} (f : α → β) (x : Act α) :
    outcome (f <$> x) w = (outcome x w).map f := by
  simp only [outcome, Functor.map, EStateM.map]
  cases x w <;> rfl

theorem map_ne_detached {α β : Type} {x : Act α} {f : α → β}
    (h : outcome x w ≠ .error (.detached path)) :
    outcome (f <$> x) w ≠ .error (.detached path) := by
  rw [outcome_map]
  cases hx : outcome x w with
  | ok a => rintro ⟨⟩
  | error e =>
    rintro he
    cases he
    exact h hx

theorem perform_ne_detached (hlive : c.Live w) (operation : Operation) :
    outcome (c.perform operation) w ≠ .error (.detached path) := by
  have hlinked := linked_eq_ok_iff.mpr hlive
  cases operation with
  | value => exact map_ne_detached (value_ne_detached hlive)
  | peek => exact map_ne_detached (peek_ne_detached hlive)
  | refresh =>
    have hrefresh : outcome c.refresh w ≠ .error (.detached path) := by
      rw [outcome, refresh_eq, hlinked]
      exact fetch_ne_detached c.rootNode c.rootPath c.rootChannel
    exact map_ne_detached (f := fun _ => Answer.nothing) hrefresh
  | needsRefresh =>
    refine map_ne_detached ?_
    rw [outcome, needsRefresh_eq, hlinked]
    rintro ⟨⟩
  | interval =>
    refine map_ne_detached ?_
    rw [outcome, interval_eq, hlinked]
    rintro ⟨⟩
  | fetchedAt =>
    refine map_ne_detached ?_
    rw [outcome, fetchedAt_eq, hlinked]
    rintro ⟨⟩
  | username =>
    refine map_ne_detached ?_
    rw [outcome, channel_eq, hlinked]
    rintro ⟨⟩
  -- these are known without asking
  | path | isRoot | describe => rintro ⟨⟩

theorem patch_ne_detached (hlive : c.Live w) (f : Json → Json) :
    outcome (c.patch f) w ≠ .error (.detached path) := by
  cases hview : c.view w with
  | ok v =>
    obtain ⟨_, -, -, hpatch⟩ := patch_of_view hview f
    rw [outcome_of_ok hpatch]
    rintro ⟨⟩
  | error e =>
    rw [outcome_of_error (patch_of_view_error hview f)]
    rintro h
    cases h
    exact view_ne_detached hlive hview

/-! ## When a link is cut -/

/-- Somewhere above a cache there is one whose node is not held. -/
def Cut (held : List NodeId) (c : Cache) : Prop := ∃ node ∈ c.above, node ∉ held

/-- A cache is detached, for every question and every update, exactly when `cut` holds; then it
answers all of them in the same way, and changes nothing. -/
structure DetachedExactlyWhen (cut : Prop) (c : Cache) (w : World) : Prop where
  asked : ∀ operation : Operation, operation.isRead = true → ((c.perform operation).Detaches w ↔ cut)
  updated : ∀ f, (c.patch f).Detaches w ↔ cut
  silent : cut → c.Detached w

theorem detachedExactlyWhen_of_iff {cut : Prop} (h : c.Live w ↔ ¬ cut) :
    c.DetachedExactlyWhen cut w := by
  -- a cut link answers every question, and a cache that is live answers none in this way
  have hdetached (hcut : cut) : c.Detached w := detached_of_not_live fun hlive => h.mp hlive hcut
  have hlive (hnot : ¬ cut) : c.Live w := h.mpr hnot
  refine ⟨fun operation hread => ⟨fun ⟨_, hfails⟩ => ?_, fun hcut => ?_⟩,
    fun f => ⟨fun ⟨_, hfails⟩ => ?_, fun hcut => ?_⟩, hdetached⟩
  · exact Classical.byContradiction fun hnot => perform_ne_detached (hlive hnot) operation hfails
  · obtain ⟨path, hperform, -⟩ := hdetached hcut
    exact ⟨path, outcome_of_error (hperform operation hread)⟩
  · exact Classical.byContradiction fun hnot => patch_ne_detached (hlive hnot) f hfails
  · obtain ⟨path, -, hpatch⟩ := hdetached hcut
    exact ⟨path, outcome_of_error (hpatch f)⟩

end Cache

end LightBridge
