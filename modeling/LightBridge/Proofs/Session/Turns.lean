import LightBridge.Proofs.Change.Turns
import LightBridge.Resource.Handle
import LightBridge.Session.Workspace

/-!
# Changes of a session as turns

The commands of a session that begin a change with a cache, set something in it and commit it take
the turns of changes that overlap.
-/

namespace LightBridge

open Change (Desk Turn)

namespace Workspace

/-- The changes of a session, and its world. -/
def desk (s : Workspace × World) : Desk := ⟨s.1.changes, s.2⟩

/-- The turn that a command takes. -/
def turn? (s : Workspace) : Command → Option Turn
  | .newChange name via path (some cache) none => do
    let channel ← s.channels.get? via
    let cache ← s.caches.get? cache
    pure (.begin name channel path cache)
  | .onChange name (.set [setter]) => some (.set name setter)
  | .commit name => some (.commit name)
  | _ => none

variable {s : Workspace} {w : World}

theorem desk_newChange {via upper name path : String} {channel : Channel} {cache : Cache}
    (hchannel : s.channels.get? via = some channel) (hcache : s.caches.get? upper = some cache) :
    desk (after (perform (.newChange name via path (some upper) none)) (s, w)) =
      (desk (s, w)).turn (.begin name channel path cache) := by
  unfold perform Workspace.channel Workspace.cache
  simp only [desk, after, bind, EStateM.bind, Step.here, Step.found, hchannel, hcache, Desk.turn,
    Change.begun, baselineOf, Functor.map, EStateM.map, pure, EStateM.pure, Step.update, liftM,
    monadLift, MonadLift.monadLift, Step.ofActOn, Act.beside, keepChange]
  cases cache.value w <;> rfl

theorem desk_onChange (name : String) (setter : Setter) :
    desk (after (perform (.onChange name (.set [setter]))) (s, w)) =
      (desk (s, w)).turn (.set name setter) := by
  unfold perform change
  cases hc : s.changes.get? name with
  | none =>
    simp only [desk, after, bind, EStateM.bind, Step.here, Step.found, hc, Desk.turn]
    rfl
  | some c =>
    simp only [desk, after, bind, EStateM.bind, Step.here, Step.found, hc, Desk.turn]
    rfl

theorem desk_commit (name : String) :
    desk (after (perform (.commit name)) (s, w)) = (desk (s, w)).turn (.commit name) := by
  unfold perform change
  cases hc : s.changes.get? name with
  | none =>
    simp only [desk, after, bind, EStateM.bind, Step.here, Step.found, hc, Desk.turn]
    rfl
  | some c =>
    simp only [desk, after, bind, EStateM.bind, Step.here, Step.found, hc, Desk.turn, pure,
      EStateM.pure, Step.update, liftM, monadLift, MonadLift.monadLift, Step.ofActOn, Act.beside]
    cases c.commit w <;> rfl

/-- A command that takes a turn does to the changes and the world what the turn does. -/
theorem desk_perform {command : Command} {t : Turn} (h : s.turn? command = some t) (w : World) :
    desk (after (perform command) (s, w)) = (desk (s, w)).turn t := by
  unfold turn? at h
  split at h
  · next name via path upper =>
    obtain ⟨channel, hchannel, hrest⟩ := Option.bind_eq_some_iff.mp h
    obtain ⟨cache, hcache, hturn⟩ := Option.bind_eq_some_iff.mp hrest
    cases hturn
    exact desk_newChange hchannel hcache
  · next name setter =>
    cases h
    exact desk_onChange name setter
  · next name =>
    cases h
    exact desk_commit name
  · cases h

end Workspace

end LightBridge
