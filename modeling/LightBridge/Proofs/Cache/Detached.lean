import LightBridge.Cache.Operation
import LightBridge.Proofs.Cache.View

/-!
# Detached caches

A view is detached when nobody holds one of the caches above it, as when its root was given up.
Whatever it is asked for then fails before anything else is done.
-/

namespace LightBridge.Cache

variable {c : Cache} {w : World} {e : Fault}

/-- The root is above every view of it. -/
theorem rootNode_mem_above (hchild : c.isRoot = false) : c.rootNode ∈ c.above := by
  induction c with
  | root => nomatch hchild
  | child parent node key ih =>
    rw [rootNode, above]
    cases parent with
    | root => exact List.mem_cons_self
    | child => exact List.mem_cons_of_mem _ (ih rfl)

/-- Whether an operation is about the state that the cache reads, and not about its place only. -/
def Operation.isRead : Operation → Bool
  | .path | .isRoot | .describe => false
  | _ => true

theorem perform_of_linked_error (h : c.linked w = .error e) {operation : Operation}
    (hread : operation.isRead = true) : c.perform operation w = .error e w := by
  have fails {α β : Type} {x : Act α} (hx : x w = .error e w) (f : α → β) :
      (f <$> x) w = .error e w := by
    simp only [Functor.map, EStateM.map, hx]
  have asks {α : Type} {f : Cache → Act α} (hf : ∀ parent node key, f (child parent node key) =
      requireHeld parent (child parent node key).path >>= fun _ => f parent) : f c w = .error e w :=
    eq_error_of_linked hf (fun _ _ _ h => h) h
  cases operation with
  | value => exact fails (read_of_linked_error (fun _ _ _ => rfl) h) _
  | peek => exact fails (read_of_linked_error (fun _ _ _ => rfl) h) _
  | refresh => exact fails (asks (f := refresh) fun _ _ _ => rfl) fun _ => Answer.nothing
  | needsRefresh => exact fails (asks fun _ _ _ => rfl) _
  | interval => exact fails (asks fun _ _ _ => rfl) _
  | fetchedAt => exact fails (asks fun _ _ _ => rfl) _
  | username => exact fails (asks fun _ _ _ => rfl) _
  | path | isRoot | describe => nomatch hread

theorem patch_of_linked_error (h : c.linked w = .error e) (f : Json → Json) :
    c.patch f w = .error e w :=
  patch_of_view_error (by rw [view, h]) f

/-- A cache that nothing can be read through: whatever asks for the state fails and changes nothing. -/
def Detached (c : Cache) (w : World) : Prop :=
  ∃ path, (∀ operation : Operation, operation.isRead = true →
      c.perform operation w = .error (.detached path) w) ∧
    ∀ f, c.patch f w = .error (.detached path) w

theorem detached_of_not_live (h : ¬ c.Live w) : c.Detached w := by
  cases hlinked : c.linked w with
  | ok _ => exact absurd (linked_eq_ok_iff.mp hlinked) h
  | error e =>
    obtain ⟨path, rfl⟩ := linked_error hlinked
    exact ⟨path, fun _ hread => perform_of_linked_error hlinked hread, patch_of_linked_error hlinked⟩

/-- A view cannot read from a root that nobody holds. -/
theorem detached_of_root_not_held (hroot : w.holds c.rootNode = false)
    (hchild : c.isRoot = false) : c.Detached w := by
  refine detached_of_not_live fun hlive => ?_
  have hheld := hlive _ (rootNode_mem_above hchild)
  rw [hroot] at hheld
  cases hheld

end LightBridge.Cache
