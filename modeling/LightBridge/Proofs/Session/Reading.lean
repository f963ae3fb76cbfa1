import LightBridge.Proofs.Resource.Reading
import LightBridge.Proofs.Session.Listing

/-!
# Reading the collections of a session

Between two commands of a session somebody holds the caches of its collections, so an entry that a
read has just made can be read as well. Whatever has happened, a read of any id leaves the entries
consistent with what it found.
-/

namespace LightBridge

namespace Registry

variable {l : Registry} {w : World}

/-- A read of any id leaves the entries of the collection consistent with what it finds. -/
def Consistent : Registry → World → Prop
  | numbered l, w | groups l, w => ∀ id, l.Consistent w id
  | named l, w => ∀ id, l.Consistent w id

theorem consistent_of_regular (h : l.Regular) (hheld : w.holds l.cache.node = true) :
    l.Consistent w := by
  cases l with
  | numbered l | groups l => exact Collection.consistent_of_regular h hheld
  | named l => exact Collection.consistent_of_regular h hheld

end Registry

/-- The collections of a workspace are regular, and somebody holds their caches. -/
theorem Workspace.regular_stateAfter {address : String} {port : UInt16} {username : String}
    {minDelay : Duration} {script : Script} {w w' : World} {s : Workspace}
    (hstart : start address port username minDelay script w = .ok s w') (commands : List Command)
    {name : String} {l : Registry} (hl : (stateAfter (s, w') commands).1.lists.get? name = some l) :
    l.Regular ∧ (stateAfter (s, w') commands).2.holds l.cache.node = true := by
  obtain ⟨hregular, hheld⟩ := start_regular hstart
  have hrun := Step.keeps_run (s := (s, w')) keeps_perform hregular hheld commands
  exact regular_of_mem hrun.1 hrun.2 hl

/-- The collections of a bridge are regular, and somebody holds their caches. -/
theorem BridgeSession.regular_stateAfter {config : Config} {script : Script} {w w' : World}
    {s : BridgeSession} (hstart : start config script w = .ok s w') (commands : List Command)
    {l : Registry} (hl : l ∈ (stateAfter (s, w') commands).1.bridge.collections) :
    l.Regular ∧ (stateAfter (s, w') commands).2.holds l.cache.node = true := by
  obtain ⟨hregular, hheld⟩ := start_regular hstart
  have hrun := Step.keeps_run (s := (s, w')) keeps_perform hregular hheld commands
  exact regular_of_mem hrun.1 hrun.2 hl

/-- **Reading.** Whatever a session has done so far, a read of any id from any of its collections
leaves the entries consistent with what it finds. When it succeeds, the id has an entry that can be
read. When an unpinned id is not found, whether its own place or one above it is gone, it has no entry
afterwards. Every other failure leaves the entries as they are, pinned ids keep theirs, and nothing
becomes of the entries of other ids. -/
theorem reads_keep_entries_consistent :
    (∀ (address : String) (port : UInt16) (username : String) (minDelay : Duration)
        (script : Script) (w w' : World) (s : Workspace),
      Workspace.start address port username minDelay script w = .ok s w' →
      ∀ commands, let s' := Workspace.stateAfter (s, w') commands
        ∀ name l, s'.1.lists.get? name = some l → l.Consistent s'.2) ∧
    (∀ (config : Config) (script : Script) (w w' : World) (s : BridgeSession),
      BridgeSession.start config script w = .ok s w' →
      ∀ commands, let s' := BridgeSession.stateAfter (s, w') commands
        ∀ l ∈ s'.1.bridge.collections, l.Consistent s'.2) := by
  constructor
  · intro address port username minDelay script w w' s hstart commands s' name l hl
    obtain ⟨hregular, hheld⟩ := Workspace.regular_stateAfter hstart commands hl
    exact l.consistent_of_regular hregular hheld
  · intro config script w w' s hstart commands s' l hl
    obtain ⟨hregular, hheld⟩ := BridgeSession.regular_stateAfter hstart commands hl
    exact l.consistent_of_regular hregular hheld

/-- The lights 1 and 2 are read first, and then light 2 alone is reported: the next read of light 1
drops its node and leaves that of light 2. -/
theorem light_dropped_when_not_found :
    let replies :=
      ["\x7b\"1\":\x7b\x7d,\"2\":\x7b\x7d\x7d", "\x7b\"2\":\x7b\x7d\x7d"]
    let s := Lights.workspace replies
    let read (id : Int32) := Workspace.Command.onList "lights" false (.get (.number id))
    let commands := [.newList "lights" "main" .numbered "/lights" (.ownRoot .never), read 2, read 1,
      .onList "lights" false .refresh]
    let s' := Workspace.stateAfter s commands
    (s'.1.lists.get? "lights").map (·.held) = some [2, 4, 3] ∧
      ((Workspace.stateAfter s (commands ++ [read 1])).1.lists.get? "lights").map (·.held) =
        some [2, 3] ∧
      ∃ l, s'.1.lists.get? "lights" = some l ∧ l.Consistent s'.2 := by
  intro replies s read commands s'
  have hheld : (s'.1.lists.get? "lights").map (·.held) = some [2, 4, 3] := by decide +kernel
  have hlater : ((Workspace.stateAfter s (commands ++ [read 1])).1.lists.get? "lights").map
      (·.held) = some [2, 3] := by decide +kernel
  obtain ⟨l, hl, -⟩ := Option.map_eq_some_iff.mp hheld
  refine ⟨hheld, hlater, l, hl, ?_⟩
  have hstart : Workspace.start "192.168.2.116" 80 "user" (.millis 0) (Lights.script replies)
      World.start = .ok s.1 s.2 := Lights.start_eq replies
  -- What the workspace is does not matter any more, and unfolding it would run the commands.
  clear_value s
  obtain ⟨hworkspaces, -⟩ := reads_keep_entries_consistent
  exact hworkspaces _ _ _ _ _ _ _ _ hstart commands "lights" l hl

end LightBridge
