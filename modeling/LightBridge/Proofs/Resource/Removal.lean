import LightBridge.Proofs.Resource.Reading
import LightBridge.Proofs.Resource.WellFormed

/-!
# Removing a resource

A removal asks the bridge first. Only when the first entry of the reply confirms the deletion does
anything change here, and then everything that is known of the resource goes at once: its entry, its
pin, and its key in the state held. Nothing else changes, and until the state is fetched anew the
resource is unknown.
-/

namespace LightBridge

/-- The first entry of a reply tells that what is at a path was deleted. -/
def Reply.Confirms (reply : Json) (path : String) : Prop :=
  ∃ entry rest, reply = .array (entry :: rest) ∧
    entry.get? "success" = some (.string (path ++ " deleted"))

theorem Reply.confirmsDeletion_iff {reply : Json} {path : String} :
    confirmsDeletion reply path = true ↔ Confirms reply path := by
  unfold confirmsDeletion Confirms
  constructor
  · intro h
    rw [beq_iff_eq, Option.bind_eq_some_iff] at h
    obtain ⟨v, hv, hstring⟩ := h
    obtain ⟨entry, hfirst, hsuccess⟩ := Option.bind_eq_some_iff.mp hv
    obtain ⟨rest, rfl⟩ := Json.first?_eq_some_iff.mp hfirst
    have htext : v = .string (path ++ " deleted") := by
      cases v with
      | string s =>
        cases hstring
        rfl
      | _ => cases hstring
    exact ⟨entry, rest, rfl, htext ▸ hsuccess⟩
  · rintro ⟨entry, rest, rfl, h⟩
    show ((entry.get? "success").bind Json.string? == some (path ++ " deleted")) = true
    rw [h, beq_iff_eq]
    rfl

namespace Collection

variable {ι : Type} [DecidableEq ι] [ResourceId ι]
variable {l l' : Collection ι} {id : ι} {w w' u : World}

/-! ## How a removal ends -/

omit [DecidableEq ι] [ResourceId ι] in
/-- A key cannot be taken from the state held when a link to it is cut, and otherwise it is no matter
whether there is such a state. -/
theorem evict_eq (l : Collection ι) (key : String) (w : World) :
    l.evict key w =
      match l.cache.linked w with
      | .error e => .error e w
      | .ok () => .ok () (after (l.cache.patch (without key)) w) := by
  unfold evict
  cases hlinked : l.cache.linked w with
  | error e =>
    have hview : l.cache.view w = .error e := by rw [Cache.view, hlinked]
    obtain ⟨path, rfl⟩ := Cache.linked_error hlinked
    rw [Cache.patch_of_view_error hview]
  | ok _ =>
    cases hview : l.cache.view w with
    | ok v =>
      obtain ⟨s, -, -, hpatch⟩ := Cache.patch_of_view hview (without key)
      rw [after_of_ok hpatch, hpatch]
    | error e =>
      have hpatch := Cache.patch_of_view_error hview (without key)
      rw [after_of_error hpatch, hpatch]
      rw [Cache.view, hlinked] at hview
      dsimp only at hview
      cases hs : w.snapshots.get? l.cache.rootNode with
      | none =>
        rw [hs] at hview
        cases hview
        rfl
      | some s =>
        rw [hs] at hview
        obtain ⟨path, rfl⟩ := Cache.extract_error hview
        rfl

/-! ## Unknown ids -/

/-- An id is unknown to a collection: its key is not held, it does not count as known, and who asks
for it gets it by a fetch only. -/
structure Unknown (l : Collection ι) (id : ι) (w : World) : Prop where
  slice? : l.slice? w id = none
  existsCached? : outcome (l.existsCached? id) w ≠ .ok true
  get : ∀ r s, get id (l, w) = .ok r s → ∃ times : List Instant, times ≠ [] ∧ s.2.sent =
    w.sent ++ times.map (⟨·, l.cache.rootChannel.compose .get l.cache.rootPath (.object [])⟩)

omit [DecidableEq ι] in
theorem slice?_eq (l : Collection ι) (w : World) (id : ι) :
    l.slice? w id = w.at? l.cache.rootNode (l.cache.keys ++ [ResourceId.key id]) := by
  rw [slice?, Cache.place?, World.at?]
  cases w.snapshots.get? l.cache.rootNode with
  | none => rfl
  | some s =>
    rw [Option.bind_some, Option.bind_some, Json.at?_append]
    cases s.value.at? l.cache.keys with
    | none => rfl
    | some v =>
      show v.get? (ResourceId.key id) = (v.get? (ResourceId.key id)).bind some
      cases v.get? (ResourceId.key id) <;> rfl

theorem unknown_of_slice? (hentry : l.isMaterialized id = false) (hpin : id ∉ l.pinned)
    (hslice : l.slice? w id = none) : l.Unknown id w := by
  have hview : ∀ v, l.cache.view w = .ok v → v.get? (ResourceId.key id) = none := by
    intro v hv
    rw [← slice?_of_view hv, hslice]
  refine ⟨hslice, ?_, fun r s h => ?_⟩
  · cases hheld : l.cache.view w with
    | ok v =>
      rw [outcome_of_ok (existsCached?_of_view hpin hheld), hentry, hview v hheld]
      exact fun h => Bool.false_ne_true (Except.ok.inj h)
    | error e =>
      have herror : l.existsCached? id w = .error e w := by
        rw [existsCached?, isPinned_eq_false hpin, hentry]
        simp only [Bool.or_self, Bool.false_eq_true, if_false, bind, EStateM.bind, Cache.peek_eq,
          hheld]
        rfl
      rw [outcome_of_error herror]
      exact fun h => by cases h
  · rcases get_of_ok h with ⟨hfound, -⟩ | ⟨-, -, fields, u, hvalue, hfield, -, -, hworld⟩
    · rw [isMaterialized, hfound] at hentry
      cases hentry
    · obtain ⟨times, hne, hsent⟩ := Cache.sent_of_value hvalue fun hheld => by
        have hnone := hview _ hheld
        rw [Json.get?_object, hfield] at hnone
        cases hnone
      refine ⟨times, hne, ?_⟩
      rw [hworld]
      exact hsent

/-! ## What a removal leaves -/

/-- What a confirmed removal leaves: the id has neither an entry nor a pin, all others keep theirs,
and its key is gone from the state held, for as long as nothing is fetched or put there. -/
structure Forgotten (l : Collection ι) (id : ι) (w : World) (l' : Collection ι) (w' : World) :
    Prop where
  collection : l' = l.forget id
  entry : l'.isMaterialized id = false
  pin : id ∉ l'.pinned
  held : w'.held = w.held
  others : ∀ node, node ≠ l.cache.rootNode → w'.snapshots.get? node = w.snapshots.get? node
  unfetched : w.snapshots.get? l.cache.rootNode = none →
    w'.snapshots.get? l.cache.rootNode = none
  root : ∀ s, w.snapshots.get? l.cache.rootNode = some s → ∃ value,
    w'.snapshots.get? l.cache.rootNode = some { s with value } ∧
    Json.Evicted l.cache.keys (ResourceId.key id) s.value value
  later : ∀ deeds, w'.Follows (fun u d => d.LeavesEmpty l.cache.rootNode
    (l.cache.keys ++ [ResourceId.key id]) u) deeds → l'.Unknown id (w'.enactAll deeds)

theorem forgotten_of_swept (hsame : Channel.SameCaches w u)
    (h : l.cache.Swept (ResourceId.key id) u w') : Forgotten l id w (l.forget id) w' := by
  have hentry : (l.forget id).isMaterialized id = false := isMaterialized_drop l id
  have hpin : id ∉ (l.forget id).pinned := fun hmem =>
    of_decide_eq_true (List.mem_filter.mp hmem).2 rfl
  refine ⟨rfl, hentry, hpin, ?_, ?_, ?_, ?_, fun deeds hdeeds => ?_⟩
  · rw [h.world]
    exact hsame.held
  · rw [← hsame.snapshots]
    exact h.others
  · rw [← hsame.snapshots]
    exact h.unfetched
  · rw [← hsame.snapshots]
    exact h.root
  · apply unknown_of_slice? hentry hpin
    rw [slice?_eq]
    exact World.at?_enactAll hdeeds h.gone

/-- A removal is confirmed or has no effect. -/
structure RemovalLaw (l : Collection ι) (id : ι) (w : World) : Prop where
  /-- One request goes out, again when its first attempt fails as transient. -/
  sent : ∃ times : List Instant,
    (∀ d, l.channel.minDelay = .millis d → times.length =
      l.channel.attempts (l.channel.compose .delete (l.entryPath id) (.object [])) w) ∧
    (after (remove id) (l, w)).2.sent =
      w.sent ++ times.map (⟨·, l.channel.compose .delete (l.entryPath id) (.object [])⟩)
  removed : outcome (remove id) (l, w) = .ok true ↔ l.cache.Live w ∧ ∃ reply u,
    l.channel.request .delete (l.entryPath id) (.object []) w = .ok reply u ∧
    Reply.Confirms reply (l.entryPath id)
  kept : outcome (remove id) (l, w) = .ok false ↔ ∃ reply u,
    l.channel.request .delete (l.entryPath id) (.object []) w = .ok reply u ∧
    ¬ Reply.Confirms reply (l.entryPath id)
  forgotten : ∀ l' w', remove id (l, w) = .ok true (l', w') → Forgotten l id w l' w'
  unchanged : ∀ l' w', remove id (l, w) = .ok false (l', w') → l' = l ∧ Channel.SameCaches w w'
  failed : ∀ e u, l.channel.request .delete (l.entryPath id) (.object []) w = .error e u →
    remove id (l, w) = .error e (l, u) ∧ Channel.SameCaches w u

section Law

variable {reply : Json} {e : Fault}

theorem remove_of_error
    (h : l.channel.request .delete (l.entryPath id) (.object []) w = .error e u) :
    remove id (l, w) = .error e (l, u) := by
  simp only [remove_eq, h]

theorem remove_of_not_confirmed
    (h : l.channel.request .delete (l.entryPath id) (.object []) w = .ok reply u)
    (hreply : ¬ Reply.Confirms reply (l.entryPath id)) : remove id (l, w) = .ok false (l, u) := by
  simp only [remove_eq, h]
  exact if_neg (mt Reply.confirmsDeletion_iff.mp hreply)

/-- A confirmed removal fails only when a link to the state held is cut. -/
theorem remove_of_confirmed
    (h : l.channel.request .delete (l.entryPath id) (.object []) w = .ok reply u)
    (hreply : Reply.Confirms reply (l.entryPath id)) :
    remove id (l, w) =
      match l.cache.linked u with
      | .error e => .error e (l.forget id, u)
      | .ok () =>
        .ok true (l.forget id, after (l.cache.patch (without (ResourceId.key id))) u) := by
  simp only [remove_eq, h, evict_eq]
  rw [if_pos (Reply.confirmsDeletion_iff.mpr hreply)]
  cases l.cache.linked u <;> rfl

/-- Whatever comes of a removal, only its request goes out. -/
theorem sent_remove (id : ι) (l : Collection ι) (w : World) :
    (after (remove id) (l, w)).2.sent =
      (after (l.channel.request .delete (l.entryPath id) (.object [])) w).sent := by
  cases hrequest : l.channel.request .delete (l.entryPath id) (.object []) w with
  | error e u => rw [after_of_error hrequest, after_of_error (remove_of_error hrequest)]
  | ok reply u =>
    rw [after_of_ok hrequest]
    by_cases hreply : Reply.Confirms reply (l.entryPath id)
    · simp only [after, remove_of_confirmed hrequest hreply]
      cases l.cache.linked u with
      | error e => rfl
      | ok _ => exact l.cache.sent_patch (without (ResourceId.key id)) u
    · rw [after_of_ok (remove_of_not_confirmed hrequest hreply)]

theorem removed_iff :
    outcome (remove id) (l, w) = .ok true ↔ l.cache.Live w ∧ ∃ reply u,
      l.channel.request .delete (l.entryPath id) (.object []) w = .ok reply u ∧
      Reply.Confirms reply (l.entryPath id) := by
  cases hrequest : l.channel.request .delete (l.entryPath id) (.object []) w with
  | error e u =>
    rw [outcome_of_error (remove_of_error hrequest)]
    simp
  | ok reply u =>
    have hlive : l.cache.Live w ↔ l.cache.linked u = .ok () := by
      rw [← Cache.linked_eq_ok_iff,
        Cache.linked_congr (Channel.sameCaches_of_request hrequest).held]
    by_cases hreply : Reply.Confirms reply (l.entryPath id)
    · rw [outcome, remove_of_confirmed hrequest hreply, hlive]
      cases l.cache.linked u <;> simp [hreply]
    · rw [outcome_of_ok (remove_of_not_confirmed hrequest hreply)]
      simp [hreply]

theorem kept_iff :
    outcome (remove id) (l, w) = .ok false ↔ ∃ reply u,
      l.channel.request .delete (l.entryPath id) (.object []) w = .ok reply u ∧
      ¬ Reply.Confirms reply (l.entryPath id) := by
  cases hrequest : l.channel.request .delete (l.entryPath id) (.object []) w with
  | error e u =>
    rw [outcome_of_error (remove_of_error hrequest)]
    simp
  | ok reply u =>
    by_cases hreply : Reply.Confirms reply (l.entryPath id)
    · rw [outcome, remove_of_confirmed hrequest hreply]
      cases l.cache.linked u <;> simp [hreply]
    · rw [outcome_of_ok (remove_of_not_confirmed hrequest hreply)]
      simp [hreply]

theorem forgotten_of_removed (hw : w.WellFormed) (h : remove id (l, w) = .ok true (l', w')) :
    Forgotten l id w l' w' := by
  obtain ⟨hlive, reply, u, hrequest, hreply⟩ := removed_iff.mp (outcome_of_ok h)
  have hsame := Channel.sameCaches_of_request hrequest
  have hlinked : l.cache.linked u = .ok () := by
    rw [Cache.linked_congr hsame.held]
    exact Cache.linked_eq_ok_iff.mpr hlive
  rw [remove_of_confirmed hrequest hreply, hlinked] at h
  cases h
  apply forgotten_of_swept hsame
  exact Cache.swept_patch (hw.of_sameCaches hsame) (Cache.linked_eq_ok_iff.mp hlinked) _

theorem unchanged_of_kept (h : remove id (l, w) = .ok false (l', w')) :
    l' = l ∧ Channel.SameCaches w w' := by
  obtain ⟨reply, u, hrequest, hreply⟩ := kept_iff.mp (outcome_of_ok h)
  rw [remove_of_not_confirmed hrequest hreply] at h
  cases h
  exact ⟨rfl, Channel.sameCaches_of_request hrequest⟩

end Law

theorem removal_lawful (hw : w.WellFormed) (id : ι) (l : Collection ι) : RemovalLaw l id w where
  sent := by
    rw [sent_remove]
    exact l.channel.exists_times_of_request ..
  removed := removed_iff
  kept := kept_iff
  forgotten _ _ h := forgotten_of_removed hw h
  unchanged _ _ h := unchanged_of_kept h
  failed e u h := by
    refine ⟨remove_of_error h, ?_⟩
    rw [← after_of_error h]
    exact l.channel.sameCaches_request ..

/-- **Removal.** Whatever was asked of a collection and done beside it, a removal makes one request.
It succeeds exactly when the first entry of the reply confirms the deletion and no link to the state
held is cut; then the id has no entry and no pin any more, its key is gone from the state held, and
all else is as before, so the id is unknown until the state is fetched anew. When the bridge does not
confirm, or cannot be asked, nothing changes. -/
theorem removal_confirmed_or_without_effect (l : Collection ι) (w : World) (hw : w.WellFormed)
    (turns : List (Turn ι)) (hturns : ∀ d, .elsewhere d ∈ turns → d.KeepsForm) (id : ι) :
    let s := takeAll (l, w) turns
    RemovalLaw s.1 id s.2 :=
  removal_lawful (wellFormed_takeAll (s := (l, w)) hw hturns) id _

/-- Lights 1 and 2 were listed, and the bridge confirms that it deleted light 1. Light 2 stays;
light 1 is unknown, also after a fetch that failed and an update of light 2. -/
theorem light_forgotten_when_deleted :
    let channel : Channel := ⟨"192.168.2.116", 80, "user", .millis 0, 1, 0⟩
    let cache := Cache.root 2 "/lights" channel .never
    let script := Script.ofLines 0
      [.once .get "/api/user/lights" (.ok "\x7b\"1\":\x7b\x7d,\"2\":\x7b\x7d\x7d"),
        .once .delete "/api/user/lights/1" (.ok "[\x7b\"success\":\"/lights/1 deleted\"\x7d]")]
    let w : World := { World.start with
      transports := Table.empty.set 0 script, slots := Table.empty.set 1 0, held := [2]
      fresh := 3 }
    let turns : List (Turn Int32) := [.ask .getAll, .elsewhere (.event (.pass 1000))]
    let s := takeAll (.ofCache channel "/lights" cache, w) turns
    let deeds := [.fetch 2 "/lights" channel .never, .update (.child cache 4 "2") fun _ => .null]
    w.WellFormed ∧ (∀ d, .elsewhere d ∈ turns → d.KeepsForm) ∧ RemovalLaw s.1 1 s.2 ∧
      s.1.entries.map (·.id) = [1, 2] ∧ ∃ l' w', remove 1 s = .ok true (l', w') ∧
      l'.entries.map (·.id) = [2] ∧ Forgotten s.1 1 s.2 l' w' ∧
      w'.Follows (fun u d => d.LeavesEmpty 2 ["1"] u) deeds ∧ l'.Unknown 1 (w'.enactAll deeds) := by
  intro channel cache script w turns s deeds
  have hw : w.WellFormed := .of_nothing rfl
  have hturns : ∀ d, .elsewhere d ∈ turns → d.KeepsForm := by
    intro d hd
    rcases List.mem_pair.mp hd with h | h
    · cases h
    · cases h
      trivial
  have hlaw : RemovalLaw s.1 1 s.2 :=
    removal_confirmed_or_without_effect (.ofCache channel "/lights" cache) w hw turns hturns 1
  have hlisted : s.1.entries.map (·.id) = [1, 2] := by decide +kernel
  have hremoved : (outcome (remove 1) s).toOption = some true := by decide +kernel
  have hids : (after (remove 1) s).1.entries.map (·.id) = [2] := by decide +kernel
  have hrefused : ¬ (Cache.answer "/lights" channel (after (remove 1) s).2).isOk = true := by
    decide +kernel
  have hroot : s.1.cache.rootNode = 2 := by decide +kernel
  have hplace : s.1.cache.keys ++ [ResourceId.key (1 : Int32)] = ["1"] := by decide +kernel
  -- What the collection is does not matter any more, and unfolding it would run the turns.
  clear_value s
  have hrun := eq_ok_of_outcome (eq_ok_of_toOption hremoved)
  have hforgotten := hlaw.forgotten _ _ hrun
  have hfollows : (after (remove 1) s).2.Follows (fun u d => d.LeavesEmpty 2 ["1"] u) deeds := by
    refine ⟨fun f hf hgood => ?_, fun _ rest hrest => ?_, trivial⟩
    · cases hf
      exact hrefused hgood.2
    · -- light 1 does not lie in light 2
      have hother : int32Text 2 ≠ "1" := by decide +kernel
      exact absurd (List.cons.inj hrest).1 hother
  have hunknown := hforgotten.later deeds
  rw [hplace, hroot] at hunknown
  exact ⟨hw, hturns, hlaw, hlisted, _, _, hrun, hids, hforgotten, hfollows, hunknown hfollows⟩

end Collection

end LightBridge
