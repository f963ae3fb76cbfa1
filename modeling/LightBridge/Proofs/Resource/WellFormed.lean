import LightBridge.Proofs.Cache.Evicted
import LightBridge.Proofs.Resource.CachedExistence

/-!
# Collections of well formed values

What is asked of a collection puts replies into its root, or takes a key out of what is held there.
Either way the roots hold well formed values afterwards, when they did before.
-/

namespace LightBridge

/-- Whatever collections do, they put nothing but well formed values into a root. -/
theorem covers_keepsForm : Covers (fun _ d => d.KeepsForm) fun _ => True where
  idle := ⟨fun _ _ => trivial, fun _ => trivial⟩
  channel _ _ _ _ _ := trivial
  cache _ _ _ := trivial
  evicted _ _ _ key _ hv := Json.wellFormed_without hv key

namespace Collection

variable {ι : Type} [DecidableEq ι] [ResourceId ι]

theorem wellFormed_perform (operation : Operation ι) {s : Collection ι × World}
    (h : s.2.WellFormed) : (after (perform operation) s).2.WellFormed := by
  obtain ⟨deeds, hdeeds, hworld, -⟩ := plays_perform covers_keepsForm operation s s.1.over_all
  rw [hworld]
  exact h.enactAll hdeeds.forall

/-- Whatever is asked of a collection, and whatever else is done with well formed values, the roots
hold well formed values afterwards. -/
theorem wellFormed_takeAll {s : Collection ι × World} {turns : List (Turn ι)}
    (h : s.2.WellFormed) (hturns : ∀ d, .elsewhere d ∈ turns → d.KeepsForm) :
    (takeAll s turns).2.WellFormed := by
  induction turns generalizing s with
  | nil => exact h
  | cons t rest ih =>
    have hfirst : (t.take s).2.WellFormed := by
      cases t with
      | ask operation => exact wellFormed_perform operation h
      | pin r => exact h
      | elsewhere d => exact h.enact (hturns d List.mem_cons_self)
    exact ih hfirst fun d hd => hturns d (List.mem_cons_of_mem t hd)

end Collection

end LightBridge
