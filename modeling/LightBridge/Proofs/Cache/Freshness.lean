import LightBridge.Proofs.Cache.Holdings
import LightBridge.Proofs.Cache.Play
import LightBridge.Proofs.Channel.Spacing

/-!
# When a root is fetched

Reading through a cache makes the request of one fetch when its root is stale, and none otherwise.
However many views share the root, a fetch that follows a good one therefore begins when the
interval has passed at the earliest.
-/

namespace LightBridge

namespace Cache

variable {c : Cache} {w : World}

/-! ## One read -/

theorem held_fetch (node : NodeId) (path : String) (channel : Channel) (w : World) :
    (after (fetch node path channel) w).held = w.held := by
  have hheld : (answered path channel w).held = w.held :=
    (channel.sameCaches_request .get path (.object []) w).held
  cases hanswer : answer path channel w with
  | ok reply => rw [after_fetch_of_ok hanswer, ← hheld]; rfl
  | error e => rw [after_fetch_of_error hanswer, hheld]

/-- What a view asks of the cache above it, and nothing else, it asks of the root when every link up
to there holds. -/
theorem eq_of_asks_above {α : Type} {f : Cache → Act α}
    {g : NodeId → String → Channel → Duration → EStateM.Result Fault World α}
    (hroot : ∀ node path channel interval,
      f (.root node path channel interval) w = g node path channel interval)
    (hchild : ∀ parent node key, f (.child parent node key) =
      requireHeld parent (Cache.child parent node key).path >>= fun _ => f parent) :
    f c w =
      match c.linked w with
      | .error e => .error e w
      | .ok () => g c.rootNode c.rootPath c.rootChannel c.rootInterval := by
  induction c with
  | root node path channel interval => exact hroot node path channel interval
  | child parent node key ih =>
    rw [hchild, linked, requireHeld_bind]
    split
    · exact ih
    · rfl

theorem needsRefresh_eq (c : Cache) (w : World) :
    c.needsRefresh w =
      match c.linked w with
      | .error e => .error e w
      | .ok () => .ok (c.rootStale w) w :=
  eq_of_asks_above (fun _ _ _ _ => rfl) fun _ _ _ => rfl

theorem refresh_eq (c : Cache) (w : World) :
    c.refresh w =
      match c.linked w with
      | .error e => .error e w
      | .ok () => fetch c.rootNode c.rootPath c.rootChannel w :=
  eq_of_asks_above (fun _ _ _ _ => rfl) fun _ _ _ => rfl

theorem interval_eq (c : Cache) (w : World) :
    c.interval w =
      match c.linked w with
      | .error e => .error e w
      | .ok () => .ok c.rootInterval w :=
  eq_of_asks_above (fun _ _ _ _ => rfl) fun _ _ _ => rfl

section Child

variable {parent : Cache} {node : NodeId} {key : String}

theorem value_child (h : w.holds parent.node = true) :
    (child parent node key).value w =
      (parent.value >>= fun v => Act.ofExcept (field (child parent node key).path key v)) w := by
  rw [value, requireHeld_bind, if_pos h]

theorem peek_child (h : w.holds parent.node = true) :
    (child parent node key).peek w =
      (parent.peek >>= fun v => Act.ofExcept (field (child parent node key).path key v)) w := by
  rw [peek, requireHeld_bind, if_pos h]

end Child

theorem value_of_linked_error {e : Fault} (h : c.linked w = .error e) :
    c.value w = .error e w :=
  read_of_linked_error (fun _ _ _ => rfl) h

/-- What is stale is fetched, and then read. -/
theorem value_of_stale (hlinked : c.linked w = .ok ()) (hstale : c.rootStale w = true) :
    c.value w = (fetch c.rootNode c.rootPath c.rootChannel >>= fun _ => c.peek) w := by
  induction c with
  | root node path channel interval =>
    rw [value_root]
    exact if_pos hstale
  | child parent node key ih =>
    cases hheld : w.holds parent.node with
    | false =>
      rw [linked, hheld, if_neg Bool.false_ne_true] at hlinked
      cases hlinked
    | true =>
      rw [linked, if_pos hheld] at hlinked
      rw [value_child hheld]
      have hparent := ih hlinked hstale
      simp only [bind, EStateM.bind] at hparent ⊢
      rw [hparent]
      -- a fetch does not give up the caches above
      have hheld' := held_fetch parent.rootNode parent.rootPath parent.rootChannel w
      rw [rootNode, rootPath, rootChannel]
      cases h : fetch parent.rootNode parent.rootPath parent.rootChannel w with
      | error e u => rfl
      | ok _ u =>
        rw [after_of_ok h] at hheld'
        have hu : u.holds parent.node = true := by
          rw [World.holds, hheld']
          exact hheld
        exact (peek_child hu).symm

theorem after_peek (c : Cache) (w : World) : after c.peek w = w := by
  have h : after c.peek w = after (Act.ofExcept (c.view w)) w := by
    simp only [after, peek_eq]
  rw [h, after_ofExcept]

/-- A root that is found to be stale is live and stale. -/
theorem needsRefresh_iff :
    outcome c.needsRefresh w = .ok true ↔ c.linked w = .ok () ∧ c.rootStale w = true := by
  rw [outcome, needsRefresh_eq]
  cases c.linked w <;> simp

/-- Reading fetches what is found to be stale. -/
theorem after_value_of_stale (h : outcome c.needsRefresh w = .ok true) :
    after c.value w = after (fetch c.rootNode c.rootPath c.rootChannel) w := by
  obtain ⟨hlinked, hstale⟩ := needsRefresh_iff.mp h
  have hvalue : after c.value w =
      after (fetch c.rootNode c.rootPath c.rootChannel >>= fun _ => c.peek) w := by
    simp only [after, value_of_stale hlinked hstale]
  rw [hvalue]
  exact after_bind_of_still (fun _ => after_peek c) w

theorem fresh_of_not_stale (hlinked : c.linked w = .ok ()) (hstale : c.rootStale w = false) :
    c.Fresh w := by
  rw [Fresh, outcome, needsRefresh_eq, hlinked, hstale]
  rfl

/-- Reading does nothing else. -/
theorem after_value_of_not_stale (h : outcome c.needsRefresh w ≠ .ok true) :
    after c.value w = w := by
  cases hlinked : c.linked w with
  | error e => exact after_of_error (value_of_linked_error hlinked)
  | ok _ =>
    have hfresh : c.Fresh w := by
      cases hs : c.rootStale w with
      | true => exact absurd (needsRefresh_iff.mpr ⟨hlinked, hs⟩) h
      | false => exact fresh_of_not_stale hlinked hs
    have hvalue : after c.value w = after c.peek w := by
      simp only [after, value_of_fresh hfresh]
    rw [hvalue, after_peek]

/-- What a read returns is held when it is over; whether it fetches first or not, it ends with a look
at what is held. -/
theorem exists_of_value {u : World} {v : Json} (h : c.value w = .ok v u) :
    c.view u = .ok v ∧ (u = w ∨ fetch c.rootNode c.rootPath c.rootChannel w = .ok () u) := by
  have look {u' : World} (hpeek : c.peek u' = .ok v u) : u = u' ∧ c.view u = .ok v := by
    have hsame : u = u' := by rw [← after_of_ok hpeek, after_peek]
    rw [hsame, ← outcome_peek]
    exact ⟨rfl, outcome_of_ok hpeek⟩
  cases hlinked : c.linked w with
  | error e =>
    rw [value_of_linked_error hlinked] at h
    cases h
  | ok _ =>
    cases hstale : c.rootStale w with
    | false =>
      rw [value_of_fresh (fresh_of_not_stale hlinked hstale)] at h
      obtain ⟨hsame, hview⟩ := look h
      exact ⟨hview, .inl hsame⟩
    | true =>
      rw [value_of_stale hlinked hstale] at h
      obtain ⟨_, u', hfetch, hpeek⟩ := exists_of_bind_ok h
      obtain ⟨rfl, hview⟩ := look hpeek
      exact ⟨hview, .inr hfetch⟩

theorem view_of_value {u : World} {v : Json} (h : c.value w = .ok v u) :
    c.view u = .ok v ∧ u.held = w.held := by
  obtain ⟨hview, rfl | hfetch⟩ := exists_of_value h
  · exact ⟨hview, rfl⟩
  · exact ⟨hview, after_of_ok hfetch ▸ held_fetch ..⟩

theorem needsRefresh_of_live (h : c.Live w) : outcome c.needsRefresh w = .ok (c.rootStale w) := by
  rw [outcome, needsRefresh_eq, linked_eq_ok_iff.mpr h]

end Cache

/-! ## The requests of a read -/

namespace Channel

/-- With a finite delay a request goes out once, or twice when the first attempt fails as
transient. -/
theorem sent_request {c : Channel} {d : Nat} (hd : c.minDelay = .millis d) (method : Method)
    (path : String) (body : Json) (w : World) :
    ∃ times : List Instant, (times.length = 1 ∨ times.length = 2) ∧
      (after (c.request method path body) w).sent =
        w.sent ++ times.map (⟨·, c.compose method path body⟩) := by
  obtain ⟨times, hlength, hsent⟩ := c.exists_times_of_request method path body w
  exact ⟨times, hlength d hd ▸ c.attempts_eq_one_or_two _ w, hsent⟩

end Channel

namespace Cache

variable {c : Cache} {w u : World} {v : Json}

/-- A fetch sends one request for the path of the root, and nothing else. -/
theorem sent_fetch (node : NodeId) (path : String) (channel : Channel) (w : World) :
    ∃ times : List Instant,
      (∀ d, channel.minDelay = .millis d →
        times.length = channel.attempts (channel.compose .get path (.object [])) w) ∧
      (after (fetch node path channel) w).sent =
        w.sent ++ times.map (⟨·, channel.compose .get path (.object [])⟩) := by
  have hsent : (after (fetch node path channel) w).sent = (answered path channel w).sent := by
    cases hanswer : answer path channel w with
    | ok reply => rw [after_fetch_of_ok hanswer]; rfl
    | error e => rw [after_fetch_of_error hanswer]
  rw [hsent]
  exact channel.exists_times_of_request ..

theorem sent_ne_of_fetch_ok {node : NodeId} {path : String} {channel : Channel}
    (h : fetch node path channel w = .ok () u) : u.sent ≠ w.sent := by
  obtain ⟨reply, v, hrequest, hrest⟩ := exists_of_bind_ok h
  obtain ⟨_, v', hcheck, hstore⟩ := exists_of_bind_ok hrest
  have hsame : v' = v := by rw [← after_of_ok hcheck, after_ofExcept]
  have hsent := Channel.sent_ne_of_request_ok hrequest
  cases hstore
  rwa [← hsame] at hsent

/-- Who reads what was not there before has fetched. -/
theorem sent_of_value (h : c.value w = .ok v u) (hview : c.view w ≠ .ok v) :
    ∃ times : List Instant, times ≠ [] ∧
      u.sent = w.sent ++ times.map (⟨·, c.rootChannel.compose .get c.rootPath (.object [])⟩) := by
  obtain ⟨hread, rfl | hfetch⟩ := exists_of_value h
  · exact absurd hread hview
  · obtain ⟨times, -, hsent⟩ := sent_fetch c.rootNode c.rootPath c.rootChannel w
    rw [after_of_ok hfetch] at hsent
    refine ⟨times, ?_, hsent⟩
    rintro rfl
    exact sent_ne_of_fetch_ok hfetch (hsent.trans (List.append_nil _))

end Cache

/-! ## Fetches of a run -/

/-- An interval has passed when a fetch begins, counted from an instant. -/
def Fetched.DueFrom (f : Fetched) (start : Instant) : Prop :=
  ∃ deadline, f.interval.after? start = some deadline ∧ deadline ≤ f.began

theorem Cache.due_of_stale {interval : Duration} {s : Snapshot} {start now : Instant}
    (hstale : Cache.isStale interval (some s) now = true) (hstart : start ≤ s.fetchedAt)
    (hnow : s.fetchedAt ≤ now) : ∃ deadline, interval.after? start = some deadline ∧ deadline ≤ now := by
  cases interval with
  | never => simp [Cache.isStale] at hstale
  | millis n =>
    refine ⟨start + n, rfl, ?_⟩
    by_cases hn : n = 0
    · subst hn
      exact Nat.le_trans hstart hnow
    · have hpassed : s.fetchedAt + n ≤ now := by simpa [Cache.isStale, hn] using hstale
      exact Nat.le_trans (Nat.add_le_add_right hstart n) hpassed

/-- A deed that fetches a root only when it is stale, and changes what roots hold by fetches and
updates only. -/
def Deed.Timely (w : World) : Deed → Prop
  | .event (.store ..) | .event (.patch ..) => False
  | .fetch node _ _ interval => Cache.isStale interval (w.snapshots.get? node) w.now = true
  | _ => True

theorem Deed.Timely.proper {w : World} {d : Deed} (h : d.Timely w) : d.Proper := by
  cases d with
  | event e =>
    cases e with
    | store | patch => exact h
    | _ => trivial
  | _ => trivial

/-- What serves a task that refetches nothing is timely. -/
theorem Task.Admits.timely {task : Task} {roots : List Cache} (htask : ∀ r, ¬ task.refetches r)
    (w : World) (d : Deed) (h : task.Admits roots w d) : d.Timely w := by
  cases d with
  | event e =>
    cases e with
    | store | patch => exact h
    | _ => trivial
  | fetch node path channel interval => exact h.2.resolve_left (htask _)
  | update c f => trivial

namespace World

variable {w : World} {node : NodeId} {deeds : List Deed}

/-- While a root holds something, it is fetched again when that is due only. -/
theorem due_of_mem_fetches (hfollows : w.Follows (fun w d => d.Timely w) deeds)
    {s : Snapshot} {start : Instant} (hs : w.snapshots.get? node = some s)
    (hstart : start ≤ s.fetchedAt) (hnow : s.fetchedAt ≤ w.now) :
    ∀ g ∈ w.fetches deeds, g.node = node → g.DueFrom start := by
  -- what the root holds gets no older; the updates in between leave its age as it is
  induction deeds generalizing w s with
  | nil =>
    intro g hg
    cases hg
  | cons d rest ih =>
    intro g hg hnode
    rcases List.mem_append.mp hg with hg | hg
    · cases d with
      | event e => cases hg
      | update c f => cases hg
      | fetch other path channel interval =>
        cases List.mem_singleton.mp hg
        cases hnode
        have hstale : Cache.isStale interval (w.snapshots.get? other) w.now = true := hfollows.1
        rw [hs] at hstale
        exact Cache.due_of_stale hstale hstart hnow
    · have hlater := w.now_le_enact d
      by_cases hgood : ∃ f ∈ w.fetched? d, f.Good node
      · obtain ⟨f, hf, hfnode, hok⟩ := hgood
        cases hreply : f.result with
        | error e =>
          rw [hreply] at hok
          cases hok
        | ok reply =>
          obtain ⟨hs', hended⟩ := snapshots_fetch_of_good hf hfnode hreply
          have hage : start ≤ f.ended := by
            rw [← hended]
            exact Nat.le_trans hstart (Nat.le_trans hnow hlater)
          exact ih hfollows.2 hs' hage (Nat.le_of_eq hended.symm) g hg hnode
      · have hsame := snapshots_enact node hfollows.1.proper fun f hf hfgood =>
          hgood ⟨f, hf, hfgood⟩
        rw [hs, Option.map_some] at hsame
        exact ih hfollows.2 hsame hstart (Nat.le_trans hnow hlater) g hg hnode

/-- **Freshness.** After a good fetch of a root, every further fetch of it begins when the interval
has passed since that one ended, at the earliest. -/
theorem pairwise_fetches (hfollows : w.Follows (fun w d => d.Timely w) deeds) :
    (w.fetches deeds).Pairwise fun f g => f.Good g.node → g.DueFrom f.ended := by
  induction deeds generalizing w with
  | nil => exact .nil
  | cons d rest ih =>
    rw [fetches, List.pairwise_append]
    refine ⟨?_, ih hfollows.2, fun f hf g hg hgood => ?_⟩
    · cases w.fetched? d with
      | none => exact .nil
      | some f => exact List.pairwise_singleton _ f
    · cases hreply : f.result with
      | error e =>
        have hok := hgood.2
        rw [hreply] at hok
        cases hok
      | ok reply =>
        obtain ⟨hs, hended⟩ :=
          snapshots_fetch_of_good (Option.mem_toList.mp hf) hgood.1 hreply
        exact due_of_mem_fetches hfollows.2 hs (Nat.le_refl _) (Nat.le_of_eq hended.symm) g hg rfl

/-- A root that serves what it holds for ever is fetched well once. -/
theorem length_good_of_never (hfollows : w.Follows (fun w d => d.Timely w) deeds)
    (hnever : ∀ f ∈ w.fetches deeds, f.node = node → f.interval = .never) :
    ((w.fetches deeds).filter (·.Good node)).length ≤ 1 := by
  have hpairs := (pairwise_fetches hfollows).filter (·.Good node)
  have hall : ∀ f ∈ (w.fetches deeds).filter (·.Good node),
      f.Good node ∧ f.interval = .never := by
    intro f hf
    obtain ⟨hmem, hgood⟩ := List.mem_filter.mp hf
    have hgood : f.Good node := of_decide_eq_true hgood
    exact ⟨hgood, hnever f hmem hgood.1⟩
  cases hlist : (w.fetches deeds).filter (·.Good node) with
  | nil => exact Nat.zero_le 1
  | cons f rest =>
    cases rest with
    | nil => exact Nat.le_refl 1
    | cons g rest =>
      rw [hlist] at hpairs hall
      obtain ⟨hfgood, -⟩ := hall f List.mem_cons_self
      obtain ⟨hggood, hinterval⟩ := hall g (List.mem_cons_of_mem f List.mem_cons_self)
      -- the second one would never be due
      have hdue := (List.pairwise_cons.mp hpairs).1 g List.mem_cons_self (hggood.1 ▸ hfgood)
      obtain ⟨deadline, hdeadline, -⟩ := hdue
      rw [hinterval] at hdeadline
      cases hdeadline

end World

end LightBridge
