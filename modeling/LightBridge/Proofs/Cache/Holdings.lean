import LightBridge.Proofs.Deed

/-!
# What a root holds

A root holds its last good reply, as old as the end of the request that brought it, with the updates
since. Failed fetches and deeds of other roots do not count.
-/

namespace LightBridge

/-- A fetch that took place. -/
structure Fetched where
  node : NodeId
  path : String
  channel : Channel
  interval : Duration
  began : Instant
  ended : Instant
  result : Except Fault Json
  /-- What the world recorded meanwhile. -/
  sent : List Sent

/-- The root that was fetched, as it was made. -/
def Fetched.root (f : Fetched) : Cache := .root f.node f.path f.channel f.interval

/-- The fetch brought a reply to a root. -/
def Fetched.Good (f : Fetched) (node : NodeId) : Prop :=
  f.node = node ∧ f.result.isOk = true

instance (f : Fetched) (node : NodeId) : Decidable (f.Good node) :=
  inferInstanceAs (Decidable (_ ∧ _))

namespace World

/-- The fetch that a deed is. -/
def fetched? (w : World) : Deed → Option Fetched
  | .fetch node path channel interval =>
    let after := Cache.answered path channel w
    some ⟨node, path, channel, interval, w.now, after.now, Cache.answer path channel w,
      after.sent.drop w.sent.length⟩
  | .event _ | .update .. => none

/-- The fetches among several deeds, in order. -/
def fetches : World → List Deed → List Fetched
  | _, [] => []
  | w, d :: rest => (w.fetched? d).toList ++ (w.enact d).fetches rest

/-- What a deed makes of the value that a root holds: an update through a live cache of that root
changes the place that the cache stands for, if there is one. -/
def updated (w : World) (node : NodeId) (d : Deed) (v : Json) : Json :=
  match d with
  | .update c f =>
    if c.rootNode = node ∧ c.Live w then
      match v.at? c.keys with
      | some old => Json.putAt (f old) c.keys v
      | none => v
    else v
  | .event _ | .fetch .. => v

/-- What several deeds make of the value that a root holds, in order. -/
def updatedAll (node : NodeId) : World → List Deed → Json → Json
  | _, [], v => v
  | w, d :: rest, v => updatedAll node (w.enact d) rest (w.updated node d v)

variable {w : World} {node : NodeId} {d : Deed} {deeds : List Deed}

theorem now_le_enact (w : World) (d : Deed) : w.now ≤ (w.enact d).now := by
  obtain ⟨events, hplay, -⟩ := w.exists_events d
  rw [hplay]
  exact w.now_le_play events

/-! ## One deed -/

theorem snapshots_event {e : Event} (h : (Deed.event e).Proper) :
    (w.enact (.event e)).snapshots.get? node = w.snapshots.get? node := by
  apply snapshots_step
  cases e with
  | store | patch => exact absurd h id
  | _ => trivial

theorem snapshots_answered (path : String) (channel : Channel) (w : World) :
    (Cache.answered path channel w).snapshots = w.snapshots :=
  (channel.sameCaches_request .get path (.object []) w).snapshots

/-- A fetch of another root, or one that gets nothing, leaves a root as it was. -/
theorem snapshots_fetch_of_not_good {other : NodeId} {path : String} {channel : Channel}
    {interval : Duration} (h : ∀ f ∈ w.fetched? (.fetch other path channel interval), ¬ f.Good node) :
    (w.enact (.fetch other path channel interval)).snapshots.get? node =
      w.snapshots.get? node := by
  have hnot := h _ rfl
  cases hanswer : Cache.answer path channel w with
  | error e =>
    rw [enact, Cache.after_fetch_of_error hanswer, snapshots_answered]
  | ok reply =>
    have hne : node ≠ other := by
      rintro rfl
      apply hnot
      exact ⟨rfl, by simp only [hanswer]; rfl⟩
    rw [enact, Cache.after_fetch_of_ok hanswer]
    show (Table.set _ other _).get? node = _
    rw [Table.get?_set_of_ne _ _ hne, snapshots_answered]

theorem snapshots_fetch_of_good {f : Fetched} (hf : w.fetched? d = some f) (hnode : f.node = node)
    {reply : Json} (hreply : f.result = .ok reply) :
    (w.enact d).snapshots.get? node = some ⟨reply, f.ended⟩ ∧ (w.enact d).now = f.ended := by
  cases d with
  | event e => cases hf
  | update c g => cases hf
  | fetch other path channel interval =>
    cases hf
    cases hnode
    rw [enact, Cache.after_fetch_of_ok hreply]
    exact ⟨Table.get?_set_self _ _ _, rfl⟩

/-- An update that fails makes nothing of what is held. -/
theorem updated_of_view_error {c : Cache} {e : Fault} {s : Snapshot} (hview : c.view w = .error e)
    (hs : w.snapshots.get? node = some s) (f : Json → Json) :
    w.updated node (.update c f) s.value = s.value := by
  rw [updated]
  split
  · next hc =>
    cases hat : s.value.at? c.keys with
    | none => rfl
    | some old =>
      have hok : c.view w = .ok old :=
        Cache.view_eq_ok_iff.mpr ⟨hc.2, s, by rw [hc.1, hs], hat⟩
      rw [hview] at hok
      cases hok
  · rfl

theorem snapshots_update (c : Cache) (f : Json → Json) :
    (w.enact (.update c f)).snapshots.get? node =
      (w.snapshots.get? node).map fun s =>
        { s with value := w.updated node (.update c f) s.value } := by
  cases hview : c.view w with
  | error e =>
    rw [enact_update_of_error hview]
    cases hs : w.snapshots.get? node with
    | none => rfl
    | some s => rw [Option.map_some, updated_of_view_error hview hs]
  | ok v =>
    obtain ⟨s, hs, hat, hpatch⟩ := Cache.patch_of_view hview f
    have hlive := (Cache.view_eq_ok_iff.mp hview).1
    rw [enact, after_of_ok hpatch]
    by_cases hnode : node = c.rootNode
    · rw [hnode, hs, Option.map_some, updated, if_pos ⟨rfl, hlive⟩, hat]
      exact Table.get?_set_self _ _ _
    · -- another root is not touched
      have hother : ∀ v, w.updated node (.update c f) v = v := by
        intro v
        rw [updated, if_neg fun hc => hnode hc.1.symm]
      simp only [hother]
      rw [Table.get?_set_of_ne _ _ hnode]
      exact Option.map_id'.symm

/-- A deed that is no good fetch of a root makes nothing of it but an update. -/
theorem snapshots_enact (node : NodeId) (hproper : d.Proper)
    (h : ∀ f ∈ w.fetched? d, ¬ f.Good node) :
    (w.enact d).snapshots.get? node =
      (w.snapshots.get? node).map fun s => { s with value := w.updated node d s.value } := by
  cases d with
  | event e =>
    rw [snapshots_event hproper]
    exact Option.map_id'.symm
  | fetch other path channel interval =>
    rw [snapshots_fetch_of_not_good h]
    exact Option.map_id'.symm
  | update c f => exact snapshots_update c f

/-! ## Several deeds -/

/-- Without a good fetch, a root holds what it held before, with the updates since. -/
theorem snapshots_enactAll (hproper : ∀ d ∈ deeds, d.Proper)
    (h : ∀ f ∈ w.fetches deeds, ¬ f.Good node) :
    (w.enactAll deeds).snapshots.get? node =
      (w.snapshots.get? node).map fun s => { s with value := w.updatedAll node deeds s.value } := by
  induction deeds generalizing w with
  | nil => exact Option.map_id'.symm
  | cons d rest ih =>
    have hfirst := snapshots_enact node (hproper d List.mem_cons_self) fun f hf =>
      h f (List.mem_append_left _ (Option.mem_toList.mpr hf))
    have hrest := ih (fun d' hd' => hproper d' (List.mem_cons_of_mem d hd')) fun f hf => h f (List.mem_append_right _ hf)
    rw [enactAll_cons, hrest, hfirst, Option.map_map]
    rfl

/-- After its last good fetch, a root holds the reply of that fetch with the updates since, as old
as the end of that fetch. -/
theorem snapshots_after_fetch {earlier later : List Deed} {f : Fetched} {reply : Json}
    (hproper : ∀ d ∈ later, d.Proper)
    (hf : (w.enactAll earlier).fetched? d = some f) (hnode : f.node = node)
    (hreply : f.result = .ok reply)
    (hlast : ∀ g ∈ (w.enactAll (earlier ++ [d])).fetches later, ¬ g.Good node) :
    (w.enactAll (earlier ++ d :: later)).snapshots.get? node =
      some ⟨(w.enactAll (earlier ++ [d])).updatedAll node later reply, f.ended⟩ := by
  have hthere : (w.enactAll (earlier ++ [d])) = (w.enactAll earlier).enact d :=
    enactAll_append w earlier [d]
  rw [hthere] at hlast ⊢
  rw [enactAll_append, enactAll_cons, snapshots_enactAll hproper hlast,
    (snapshots_fetch_of_good hf hnode hreply).1]
  rfl

end World

/-! ## Deeds elsewhere -/

/-- A deed that leaves the place that a cache stands for alone: it is no fetch of its root, and no
update of that place, of something in it, or of something that it lies in. -/
def Deed.Spares (c : Cache) : Deed → Prop
  | .event e => e.Spares c.rootNode
  | .fetch node .. => node ≠ c.rootNode
  | .update other _ => other.rootNode = c.rootNode → Cache.Apart other.keys c.keys

namespace Cache

variable {c : Cache} {w : World} {d : Deed} {deeds : List Deed}

/-- What there is in the place that a cache stands for, whether or not the cache is live. -/
def place? (c : Cache) (w : World) : Option Json :=
  (w.snapshots.get? c.rootNode).bind fun s => s.value.at? c.keys

theorem view_eq_ok_iff_place? {v : Json} :
    c.view w = .ok v ↔ c.Live w ∧ c.place? w = some v := by
  rw [view_eq_ok_iff, place?, Option.bind_eq_some_iff]

theorem place?_enact (h : d.Spares c) : c.place? (w.enact d) = c.place? w := by
  cases d with
  | event e =>
    have hsame : (w.enact (.event e)).snapshots.get? c.rootNode = w.snapshots.get? c.rootNode :=
      World.snapshots_step h w
    rw [place?, place?, hsame]
  | fetch node path channel interval =>
    have hsame : (w.enact (.fetch node path channel interval)).snapshots.get? c.rootNode =
        w.snapshots.get? c.rootNode := by
      apply World.snapshots_fetch_of_not_good
      intro f hf hgood
      cases hf
      exact h hgood.1
    rw [place?, place?, hsame]
  | update other f =>
    have hvalue : ∀ v : Json, (w.updated c.rootNode (.update other f) v).at? c.keys = v.at? c.keys := by
      intro v
      rw [World.updated]
      split
      · next hroot =>
        cases hat : v.at? other.keys with
        | none => rfl
        | some old =>
          obtain ⟨hinside, houtside⟩ := h hroot.1
          exact Json.at?_putAt_beside hinside houtside
      · rfl
    rw [place?, place?, World.snapshots_update]
    cases w.snapshots.get? c.rootNode with
    | none => rfl
    | some s => exact hvalue s.value

/-- A live cache reads as before when all that was done left its place alone. -/
theorem view_enactAll {v : Json} (hview : c.view w = .ok v) (hdeeds : ∀ d ∈ deeds, d.Spares c)
    (hlive : c.Live (w.enactAll deeds)) : c.view (w.enactAll deeds) = .ok v := by
  have hplace : c.place? (w.enactAll deeds) = c.place? w := by
    clear hview hlive
    induction deeds generalizing w with
    | nil => rfl
    | cons d rest ih =>
      rw [World.enactAll_cons, ih fun d' hd' => hdeeds d' (List.mem_cons_of_mem d hd'),
        place?_enact (hdeeds d List.mem_cons_self)]
  rw [view_eq_ok_iff_place?, hplace]
  exact ⟨hlive, (view_eq_ok_iff_place?.mp hview).2⟩

end Cache

end LightBridge
