import LightBridge.Proofs.Cache.Play
import LightBridge.Change.Pending

/-!
# What a pending change does to a world

A commit sends what the change has to send, to its path and through its channel, and then patches
the cached state. A change without a body does nothing.
-/

namespace LightBridge.Change

variable {P : World → Deed → Prop}

/-- The failures of a patch that are passed over: nothing is cached, or the cache was given up. -/
def passedOver : Fault → Bool
  | .cacheEmpty _ | .detached _ => true
  | _ => false

theorem writeBack_eq_forgiving (cache : Cache) (request : Fields) :
    writeBack (some cache) request =
      Act.forgiving passedOver (cache.patch (patchState request)) := by
  funext w
  unfold writeBack Act.forgiving
  dsimp only
  cases cache.patch (patchState request) w with
  | ok => rfl
  | error e => cases e <;> rfl

theorem plays_writeBack (cache : Option Cache) (request : Fields)
    (hP : ∀ c, cache = some c → ∀ w, P w (.update c (patchState request))) :
    Act.Plays P (fun _ => True) (writeBack cache request) := by
  cases cache with
  | none => exact .pure () trivial
  | some cache =>
    rw [writeBack_eq_forgiving]
    exact Act.plays_forgiving (Cache.plays_patch cache (patchState request) (hP cache rfl))

/-- Whatever a commit sends, and patches the cached state with, is the body of the change. -/
theorem plays_commit (c : Change)
    (hsend : ∀ body, c.body? = some body →
      ∀ w, P w (.event (.attempt c.channel (c.channel.compose .put c.path (.object body)))))
    (hpatch : ∀ body, c.body? = some body → ∀ cache, c.cache = some cache →
      ∀ w, P w (.update cache (patchState body))) :
    Act.Plays P (fun _ => True) c.commit := by
  unfold commit
  cases hbody : c.body? with
  | none => exact .pure true trivial
  | some body =>
    refine (c.channel.plays_write c.path body (hsend body hbody)).bind fun acknowledged _ => ?_
    cases acknowledged with
    | false => exact .pure false trivial
    | true => exact (plays_writeBack c.cache body (hpatch body hbody)).andThen (.pure true trivial)

theorem plays_commit_of_used {c : Change} (hc : c.channel.Used P)
    (hpatch : ∀ body, c.body? = some body → ∀ cache, c.cache = some cache →
      ∀ w, P w (.update cache (patchState body))) :
    Act.Plays P (fun _ => True) c.commit :=
  plays_commit c (fun body _ w => hc w (c.channel.compose .put c.path (.object body)) nofun) hpatch

end LightBridge.Change
