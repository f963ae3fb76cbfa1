import LightBridge.Proofs.Resource.Mirror
import LightBridge.Proofs.Session.Regular

/-!
# Listing the collections of a session

Collections are regular in every session, and between two commands somebody holds all that a session
has. So whatever has happened, a listing mirrors what the bridge reports.
-/

namespace LightBridge

namespace Registry

variable {l : Registry} {w : World}

/-- A listing of the collection mirrors what is reported. -/
def Mirrors : Registry → World → Prop
  | numbered l, w | groups l, w => l.Mirrors w
  | named l, w => l.Mirrors w

theorem mirrors_of_regular (h : l.Regular) (hheld : w.holds l.cache.node = true) : l.Mirrors w := by
  cases l with
  | numbered l | groups l => exact Collection.mirrors_of_regular h hheld
  | named l => exact Collection.mirrors_of_regular h hheld

theorem node_mem_held (l : Registry) : l.cache.node ∈ l.held := by
  cases l with
  | numbered | groups | named => exact List.mem_cons_self

end Registry

namespace Bridge

/-- The collections of a bridge. -/
def collections (b : Bridge) : List Registry :=
  [.numbered b.connection.lights, .groups b.connection.groups, .numbered b.connection.schedules,
    .named b.connection.scenes, .numbered b.connection.sensors]

theorem Regular.of_mem_collections {b : Bridge} (h : b.Regular) {l : Registry}
    (hl : l ∈ b.collections) : l.Regular := by
  simp only [collections, List.mem_cons, List.not_mem_nil, or_false] at hl
  rcases hl with rfl | rfl | rfl | rfl | rfl
  · exact h.lights
  · exact h.groups
  · exact h.schedules
  · exact h.scenes
  · exact h.sensors

theorem node_mem_held {b : Bridge} {l : Registry} (hl : l ∈ b.collections) :
    l.cache.node ∈ b.held := by
  have hnode := l.node_mem_held
  simp only [collections, List.mem_cons, List.not_mem_nil, or_false] at hl
  simp only [held, List.mem_append, List.mem_cons]
  rcases hl with rfl | rfl | rfl | rfl | rfl
  · exact .inl (.inl (.inl (.inl (.inr hnode))))
  · exact .inl (.inl (.inl (.inr hnode)))
  · exact .inl (.inl (.inr hnode))
  · exact .inl (.inr hnode)
  · exact .inr hnode

end Bridge

theorem Workspace.regular_of_mem {s : Workspace × World} (hs : s.1.Regular)
    (hheld : ∀ node ∈ held s.1, s.2.holds node = true) {name : String} {l : Registry}
    (hl : s.1.lists.get? name = some l) : l.Regular ∧ s.2.holds l.cache.node = true := by
  refine ⟨hs name l hl, hheld _ ?_⟩
  refine List.mem_append_left _ (List.mem_append_right _ ?_)
  exact List.mem_flatMap.mpr ⟨l, Table.mem_values hl, l.node_mem_held⟩

theorem BridgeSession.regular_of_mem {s : BridgeSession × World} (hs : s.1.Regular)
    (hheld : ∀ node ∈ held s.1, s.2.holds node = true) {l : Registry}
    (hl : l ∈ s.1.bridge.collections) : l.Regular ∧ s.2.holds l.cache.node = true := by
  refine ⟨Bridge.Regular.of_mem_collections hs hl, hheld _ ?_⟩
  exact List.mem_append_left _ (List.mem_append_left _ (Bridge.node_mem_held hl))

theorem Workspace.mirrors_of_mem {s : Workspace × World} (hs : s.1.Regular)
    (hheld : ∀ node ∈ held s.1, s.2.holds node = true) {name : String} {l : Registry}
    (hl : s.1.lists.get? name = some l) : l.Mirrors s.2 :=
  have h := regular_of_mem hs hheld hl
  l.mirrors_of_regular h.1 h.2

theorem BridgeSession.mirrors_of_mem {s : BridgeSession × World} (hs : s.1.Regular)
    (hheld : ∀ node ∈ held s.1, s.2.holds node = true) {l : Registry}
    (hl : l ∈ s.1.bridge.collections) : l.Mirrors s.2 :=
  have h := regular_of_mem hs hheld hl
  l.mirrors_of_regular h.1 h.2

/-- **Listing.** Whatever a session has done so far, a listing of any of its collections mirrors what
is reported: it lists the pinned and the reported ids, in order; entries that are still reported stay
as they are; each other reported id gets one entry, made from the field that reports it, with a cache
that reads just that. When the listing fails, no entry changes. -/
theorem listings_mirror_reports :
    (∀ (address : String) (port : UInt16) (username : String) (minDelay : Duration)
        (script : Script) (w w' : World) (s : Workspace),
      Workspace.start address port username minDelay script w = .ok s w' →
      ∀ commands, let s' := Workspace.stateAfter (s, w') commands
        ∀ name l, s'.1.lists.get? name = some l → l.Mirrors s'.2) ∧
    (∀ (config : Config) (script : Script) (w w' : World) (s : BridgeSession),
      BridgeSession.start config script w = .ok s w' →
      ∀ commands, let s' := BridgeSession.stateAfter (s, w') commands
        ∀ l ∈ s'.1.bridge.collections, l.Mirrors s'.2) := by
  constructor
  · intro address port username minDelay script w w' s hstart commands s' name l hl
    obtain ⟨hregular, hheld⟩ := Workspace.start_regular hstart
    have hrun := Step.keeps_run (s := (s, w')) Workspace.keeps_perform hregular hheld commands
    exact Workspace.mirrors_of_mem hrun.1 hrun.2 hl
  · intro config script w w' s hstart commands s' l hl
    obtain ⟨hregular, hheld⟩ := BridgeSession.start_regular hstart
    have hrun := Step.keeps_run (s := (s, w')) BridgeSession.keeps_perform hregular hheld commands
    exact BridgeSession.mirrors_of_mem hrun.1 hrun.2 hl

/-- The lights 1 and 2 are reported and listed first, and then 2 and 3. Light 2 keeps the node that
it has, and light 3 gets the next one. -/
theorem lights_listed_after_change :
    let replies :=
      ["\x7b\"1\":\x7b\x7d,\"2\":\x7b\x7d\x7d", "\x7b\"2\":\x7b\x7d,\"3\":\x7b\x7d\x7d"]
    let s := Lights.workspace replies
    let list := Workspace.Command.onList "lights" false .getAll
    let commands := [.newList "lights" "main" .numbered "/lights" (.ownRoot .never), list,
      .onList "lights" false .refresh]
    let s' := Workspace.stateAfter s commands
    (s'.1.lists.get? "lights").map (·.held) = some [2, 3, 4] ∧
      ((Workspace.stateAfter s (commands ++ [list])).1.lists.get? "lights").map (·.held) =
        some [2, 4, 5] ∧
      ∃ l, s'.1.lists.get? "lights" = some l ∧ l.Mirrors s'.2 := by
  intro replies s list commands s'
  have hheld : (s'.1.lists.get? "lights").map (·.held) = some [2, 3, 4] := by decide +kernel
  have hlater : ((Workspace.stateAfter s (commands ++ [list])).1.lists.get? "lights").map (·.held) =
      some [2, 4, 5] := by decide +kernel
  obtain ⟨l, hl, -⟩ := Option.map_eq_some_iff.mp hheld
  refine ⟨hheld, hlater, l, hl, ?_⟩
  have hstart : Workspace.start "192.168.2.116" 80 "user" (.millis 0) (Lights.script replies)
      World.start = .ok s.1 s.2 := Lights.start_eq replies
  -- What the workspace is does not matter any more, and unfolding it would run the commands.
  clear_value s
  obtain ⟨hworkspaces, -⟩ := listings_mirror_reports
  exact hworkspaces _ _ _ _ _ _ _ _ hstart commands "lights" l hl

end LightBridge
