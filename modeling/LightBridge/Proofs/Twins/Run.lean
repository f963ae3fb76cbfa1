import LightBridge.Proofs.Twins.Session

/-!
# Runs side by side

Sessions that correspond are observed to do the same, command after command: they answer the same but
for the names in the answers, at the same instants, and send the same requests.
-/

namespace LightBridge

variable {t : Twins} {n m : Nat}

namespace BridgeSession

variable {keptApart changesApart : String → Prop} {s s' : BridgeSession × World}

/-! ## What is held -/

theorem mem_held_iff {s : BridgeSession} {a : NodeId} :
    a ∈ s.held ↔ a ∈ s.bridge.held ∨ (∃ c ∈ s.kept.values, a ∈ Holder.nodes c) ∨
      ∃ c ∈ s.changes.values, a ∈ Holder.nodes c := by
  have hchange (c : Change) : c.cache.map (·.node) = some a ↔ a ∈ Holder.nodes c := by
    show _ ↔ a ∈ c.cache.toList.map (·.node)
    cases c.cache with
    | none => simp
    | some cache => simp [eq_comm]
  have hkept (c : Cache) : c.node = a ↔ a ∈ Holder.nodes c :=
    ⟨fun h => List.mem_singleton.mpr h.symm, fun h => (List.mem_singleton.mp h).symm⟩
  simp only [held, List.mem_append, List.mem_map, List.mem_filterMap, hchange, hkept, or_assoc]

end BridgeSession

namespace Twins.Sessions

open BridgeSession

variable {keptApart changesApart : String → Prop} {s s' : BridgeSession}

theorem mem_held_iff (h : t.Sessions keptApart changesApart n s s') {a : NodeId}
    (ha : t.since ≤ a) : t.across.name a ∈ s'.held ↔ a ∈ s.held := by
  obtain ⟨heq, hwithin⟩ := h.bridge
  have hbridge : t.across.name a ∈ s'.bridge.held ↔ a ∈ s.bridge.held := by
    rw [heq, show Named.rename t.across s.bridge = s.bridge.rename t.across from rfl,
      Bridge.held_rename]
    constructor
    · intro hmem
      -- two names that correspond to the same name are the same
      obtain ⟨b, hb, hab⟩ := List.mem_map.mp hmem
      rwa [← name_inj (hwithin.has_of_mem_held hb).1 ha hab]
    · exact List.mem_map_of_mem
  rw [BridgeSession.mem_held_iff, BridgeSession.mem_held_iff, hbridge, h.kept.mem_nodes_iff ha,
    h.changes.mem_nodes_iff ha]

theorem lt_of_mem_held (h : t.Sessions keptApart changesApart n s s') (hn : t.since ≤ n)
    {a : NodeId} (ha : a ∈ s.held) : a < n := by
  rcases BridgeSession.mem_held_iff.mp ha with ha | ⟨c, hc, ha⟩ | ⟨c, hc, ha⟩
  · exact (h.bridge.2.has_of_mem_held ha).2
  · exact h.kept.lt_of_mem hn hc ha
  · exact h.changes.lt_of_mem hn hc ha

end Twins.Sessions

/-! ## Observations -/

/-- What is seen, without the names in it. -/
def Observed.nameless {ε α : Type} [Named α] (o : Observed ε α) : Observed ε α :=
  { o with outcome := o.outcome.map Named.nameless }

namespace BridgeSession

variable {keptApart changesApart : String → Prop} {s s' : BridgeSession × World}

/-- An endless duration was added to an instant, by the command itself or by something that was done
with a handle. -/
def Overflows (o : Observed SessionError Answer) : Prop :=
  o.Overflows ∨ ∃ all, o.outcome = .ok (.readings all) ∧ ∃ seen ∈ all, seen.Overflows

/-- The same is seen of both runs, but for names, and only what may be done. -/
structure SeenAlike (t : Twins) (o o' : Observed SessionError Answer) : Prop where
  nameless : o'.nameless = o.nameless
  asked : ∀ x ∈ o.sent, t.asked x.request
  overflows : Overflows o → t.endless

/-- Two sessions with their worlds correspond. -/
structure StatesAlike (t : Twins) (keptApart changesApart : String → Prop)
    (s s' : BridgeSession × World) : Prop where
  worlds : t.Worlds s.2 s'.2
  sessions : t.Sessions keptApart changesApart s.2.fresh s.1 s'.1

theorem StatesAlike.settle (h : StatesAlike t keptApart changesApart s s') :
    StatesAlike t keptApart changesApart (s.1, s.2.settle s.1.held)
      (s'.1, s'.2.settle s'.1.held) :=
  ⟨h.worlds.settle (fun _ => h.sessions.lt_of_mem_held h.worlds.since)
    fun _ => h.sessions.mem_held_iff, h.sessions⟩

theorem step_alike (h : StatesAlike t keptApart changesApart s s') {c : Command}
    (hc : c.Fits t keptApart changesApart) :
    SeenAlike t (step s c).1 (step s' c).1 ∧
      StatesAlike t keptApart changesApart (step s c).2 (step s' c).2 := by
  have hends := alike_perform hc s s' (Nat.le_refl _) h.worlds h.sessions
  -- also after a failure the sessions correspond, so that the run can go on
  unfold step Step.observe
  generalize perform c s = r at hends ⊢
  generalize perform c s' = r' at hends ⊢
  cases hends with
  | @ok a a' u u' ha hmoved =>
    obtain ⟨rfl, hwithin⟩ := ha
    refine ⟨⟨?_, hmoved.asked, ?_⟩, StatesAlike.settle ⟨hmoved.worlds, hmoved.states⟩⟩
    · have hnow : u'.2.now = u.2.now := hmoved.worlds.now
      have hname := congrArg (Except.ok (ε := SessionError)) (Named.nameless_rename t.across a)
      show (⟨.ok _, u'.2.now, u'.2.sent.drop s'.2.sent.length⟩ : Observed SessionError Answer) =
        ⟨.ok _, u.2.now, u.2.sent.drop s.2.sent.length⟩
      rw [hnow, hmoved.drop_sent, hname]
    · rintro (⟨e, he, -⟩ | ⟨all, hall, seen, hseen, hoverflows⟩)
      · cases he
      · cases hall
        exact hwithin seen hseen hoverflows
  | @error e u u' he hmoved =>
    refine ⟨⟨?_, hmoved.asked, ?_⟩, StatesAlike.settle ⟨hmoved.worlds, hmoved.states⟩⟩
    · have hnow : u'.2.now = u.2.now := hmoved.worlds.now
      show (⟨.error e, u'.2.now, u'.2.sent.drop s'.2.sent.length⟩ : Observed SessionError Answer) =
        ⟨.error e, u.2.now, u.2.sent.drop s.2.sent.length⟩
      rw [hnow, hmoved.drop_sent]
    · rintro (⟨e', he', hoverflows⟩ | ⟨all, hall, -⟩)
      · cases he'
        exact he hoverflows
      · cases hall

/-- Runs of the same commands are seen alike, and what they leave corresponds. -/
theorem run_alike (h : StatesAlike t keptApart changesApart s s') {commands : List Command}
    (hcommands : ∀ c ∈ commands, c.Fits t keptApart changesApart) :
    List.Forall₂ (SeenAlike t) (run s commands) (run s' commands) ∧
      StatesAlike t keptApart changesApart (stateAfter s commands) (stateAfter s' commands) := by
  induction commands generalizing s s' with
  | nil => exact ⟨.nil, h⟩
  | cons c rest ih =>
    obtain ⟨hseen, hstates⟩ := step_alike h (hcommands c List.mem_cons_self)
    obtain ⟨hrest, hlast⟩ := ih hstates fun c' hc' => hcommands c' (List.mem_cons_of_mem c hc')
    exact ⟨.cons hseen hrest, hlast⟩

end BridgeSession

end LightBridge
