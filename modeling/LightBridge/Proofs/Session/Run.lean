import LightBridge.Proofs.Keep
import LightBridge.Proofs.Session.Spacing

/-!
# What runs keep

After each command of a session the nodes are held that the session has, and no others. What every
command keeps, a run of commands keeps.
-/

namespace LightBridge

variable {α γ σ : Type} {I : σ → Prop}

/-- After a command exactly the nodes of the session are held. -/
theorem Step.held_observe {held : σ → List NodeId} (x : Step σ α) (s : σ × World) :
    (x.observe held s).2.2.held = held (x.observe held s).2.1 := by
  rw [state_observe]
  rfl

theorem Step.fst_observe (held : σ → List NodeId) (x : Step σ α) (s : σ × World) :
    (x.observe held s).2.1 = (after x s).1 := by
  rw [state_observe]

/-- Giving up nodes after a command is of no concern to the names. -/
theorem Step.fresh_observe (held : σ → List NodeId) (x : Step σ α) (s : σ × World) :
    (x.observe held s).2.2.fresh = (after x s).2.fresh := by
  rw [state_observe]
  rfl

/-- When a run begins with exactly the nodes of the session held, it ends so. -/
theorem Step.held_run {perform : γ → Step σ α} {held : σ → List NodeId} {s : σ × World}
    (h : s.2.held = held s.1) (commands : List γ) :
    let s' := commands.foldl (fun s c => ((perform c).observe held s).2) s
    s'.2.held = held s'.1 := by
  induction commands generalizing s with
  | nil => exact h
  | cons c rest ih => exact ih (held_observe (perform c) s)

theorem Step.held_run_of_ne_nil {perform : γ → Step σ α} {held : σ → List NodeId} {s : σ × World}
    {commands : List γ} (h : commands ≠ []) :
    let s' := commands.foldl (fun s c => ((perform c).observe held s).2) s
    s'.2.held = held s'.1 := by
  cases commands with
  | nil => exact absurd rfl h
  | cons c rest => exact held_run (held_observe (perform c) s) rest

/-- What every command keeps, a run keeps; and when a run begins with all nodes of the session held,
it ends so. -/
theorem Step.keeps_run {perform : γ → Step σ α} {held : σ → List NodeId}
    (hperform : ∀ c, Keeps I (fun _ => True) (perform c)) {s : σ × World} (hs : I s.1)
    (hheld : ∀ node ∈ held s.1, s.2.holds node = true) (commands : List γ) :
    let s' := commands.foldl (fun s c => ((perform c).observe held s).2) s
    I s'.1 ∧ ∀ node ∈ held s'.1, s'.2.holds node = true := by
  induction commands generalizing s with
  | nil => exact ⟨hs, hheld⟩
  | cons c rest ih =>
    have hkeeps : I ((perform c).observe held s).2.1 := by
      rw [fst_observe]
      exact (hperform c s hs).1
    refine ih hkeeps fun node hnode => ?_
    rw [World.holds, held_observe]
    exact List.contains_iff_mem.mpr hnode

namespace BridgeSession

variable {config : Config}

theorem Over.of_all {C : Channel → Prop} (hall : ∀ c, C c) (s : BridgeSession) :
    s.Over s.bridge.config C :=
  have list {ι : Type} (l : Collection ι) : l.Over C := ⟨hall _, hall _, fun _ _ => hall _⟩
  ⟨⟨⟨rfl, rfl, rfl⟩, ⟨hall _, hall _, list _, list _, list _, list _, list _⟩⟩,
    fun _ _ _ => hall _, fun _ _ _ => hall _⟩

/-- A command gives out names and takes none back. -/
theorem fresh_le_step (s : BridgeSession × World) {c : Command} (hc : c.reconnects = false) :
    s.2.fresh ≤ (step s c).2.2.fresh := by
  obtain ⟨deeds, -, hworld, -⟩ :=
    plays_perform (p := .closed fun _ => True) hc s (Over.of_all (fun _ => trivial) s.1)
  rw [step, Step.fresh_observe, hworld]
  exact s.2.fresh_le_enactAll deeds

end BridgeSession

end LightBridge
