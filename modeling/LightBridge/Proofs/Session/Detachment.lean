import LightBridge.Proofs.Cache.Cut
import LightBridge.Proofs.Session.Listing
import LightBridge.Proofs.Session.Trait

/-!
# Handles that are detached for good

Every name above a handle was given out before, and a name is given out once. So a node that nobody
in a session holds any more is never held again, and a link that is cut stays cut.
-/

namespace LightBridge

/-! ## Names in handles -/

/-- All names in a handle were given out. -/
def Trait.given : Trait where
  At k c := c.top ∈ k.roots ∧ ∀ node ∈ c.node :: c.above, node < k.next
  mono hkl h := ⟨hkl.2 _ h.1, fun node hnode => Nat.lt_of_lt_of_le (h.2 node hnode) hkl.1⟩
  since := 0
  known h := h.1
  root _ := by
    refine ⟨List.mem_cons_self, fun node hnode => ?_⟩
    rw [List.mem_singleton.mp hnode]
    exact Nat.lt_succ_self _
  child _ h := by
    refine ⟨h.1, fun node hnode => ?_⟩
    rcases List.mem_cons.mp hnode with rfl | hnode
    · exact Nat.lt_succ_self _
    · exact Nat.lt_succ_of_lt (h.2 node hnode)

/-- The handle is not one of a node that was given out already. -/
def Trait.without (lost : NodeId) : Trait where
  At k c := c.top ∈ k.roots ∧ c.node ≠ lost
  mono hkl h := ⟨hkl.2 _ h.1, h.2⟩
  since := lost + 1
  known h := h.1
  root hsince := ⟨List.mem_cons_self, Nat.ne_of_gt hsince⟩
  child hsince h := ⟨h.1, Nat.ne_of_gt hsince⟩

/-! ## Runs of any session -/

section Runs

variable {σ γ α : Type} {perform : γ → Step σ α} {held : σ → List NodeId} {handles : σ → List Cache}
  {task : σ × World → γ → Task} {s : σ × World} {k : Names}

namespace HasHandles

variable (h : HasHandles perform held handles task) (hk : k.next = s.2.fresh)
  (hs : ∀ c ∈ handles s.1, Trait.given.At k c)

include h hk hs

/-- A node that nobody holds any more is never held again. -/
theorem not_mem_held_run {lost : NodeId} (hlost : lost < s.2.fresh) (hnot : lost ∉ held s.1)
    (commands : List γ) :
    let s' := commands.foldl (fun s c => ((perform c).observe held s).2) s
    lost ∉ held s'.1 := by
  intro s' hmem
  -- no handle is one of the lost node, and none will be, since its name is not given out again
  have hwithout : ∀ c ∈ handles s.1, (Trait.without lost).At k c := by
    refine fun c hc => ⟨(hs c hc).1, ?_⟩
    rintro rfl
    exact hnot (by rw [h.held_eq]; exact List.mem_map_of_mem hc)
  rw [h.held_eq] at hmem
  obtain ⟨c, hc, hnode⟩ := List.mem_map.mp hmem
  have hsince : (Trait.without lost).since ≤ k.next := by
    rw [hk]
    exact hlost
  obtain ⟨l, -, hlater⟩ := h.exists_names_run hk hsince hwithout commands
  exact (hlater c hc).2 hnode

/-- A link that is cut stays cut. -/
theorem cut_run {c : Cache} (hc : Trait.given.At k c) (hcut : c.Cut (held s.1))
    (commands : List γ) :
    let s' := commands.foldl (fun s c => ((perform c).observe held s).2) s
    c.Cut (held s'.1) := by
  obtain ⟨node, hnode, hnot⟩ := hcut
  have hlt : node < s.2.fresh := hk ▸ hc.2 node (List.mem_cons_of_mem _ hnode)
  exact ⟨node, hnode, h.not_mem_held_run hk hs hlt hnot commands⟩

end HasHandles

end Runs

/-! ## Asking through a session -/

section Asking

variable {σ γ α β : Type} {held : σ → List NodeId} {s : σ × World}

/-- A step does an operation on the world, and answers what that answers. -/
def Step.Does (y : Step σ α) (x : Act β) (s : σ × World) : Prop :=
  ∃ f : β → α, y s =
    match x s.2 with
    | .ok a w => .ok (f a) (s.1, w)
    | .error e w => .error (.fault e) (s.1, w)

theorem Step.does_lift (x : Act β) (f : β → α) (s : σ × World) :
    ((liftM x : Step σ β) >>= fun a => pure (f a)).Does x s := by
  obtain ⟨s, w⟩ := s
  refine ⟨f, ?_⟩
  show EStateM.bind (ofActOn .fault (x.beside σ)) (fun a => pure (f a)) (s, w) = _
  cases h : x w with
  | ok a w' =>
    simp only [EStateM.bind, ofActOn, Act.beside, h]
    rfl
  | error e w' => simp only [EStateM.bind, ofActOn, Act.beside, h]

/-- What only looks something up does not count. -/
theorem Step.Does.after_lookup {δ : Type} {y : Step σ δ} {d : δ} (hy : y s = .ok d s)
    {k : δ → Step σ α} {x : Act β} (h : (k d).Does x s) : (y >>= k).Does x s := by
  obtain ⟨f, hrun⟩ := h
  exact ⟨f, (bind_eq_of_ok hy).trans hrun⟩

/-- A command is answered with the fault of a detached cache. -/
def Observed.IsDetached (seen : Observed SessionError α) : Prop :=
  ∃ path, seen.outcome = .error (.fault (.detached path))

theorem Step.Does.isDetached_iff {y : Step σ α} {x : Act β} (h : y.Does x s) :
    (y.observe held s).1.IsDetached ↔ x.Detaches s.2 := by
  obtain ⟨f, hrun⟩ := h
  unfold Observed.IsDetached Act.Detaches observe outcome
  rw [hrun]
  cases x s.2 <;> simp

/-- A step whose operation fails before anything else is done leaves all as it was. -/
theorem Step.Does.observe_of_error {y : Step σ α} {x : Act β} (h : y.Does x s) {e : Fault}
    (hx : x s.2 = .error e s.2) (hheld : s.2.held = held s.1) :
    (y.observe held s).1.sent = [] ∧ (y.observe held s).2 = s := by
  obtain ⟨f, hrun⟩ := h
  rw [hx] at hrun
  refine ⟨?_, ?_⟩
  · simp only [observe, hrun]
    exact List.drop_length
  · rw [state_observe, after_of_error hrun, ← hheld]
    rfl

/-- The law of a handle of a session that is at `s`. Whatever is asked through it, it is detached
exactly when a link above it is cut. A command that asks it answers so, and in that case sends nothing
and leaves the session and its world as they were. From then on, whatever the session does, the link
stays cut, and every operation through the handle and every command that asks it fails. -/
structure HandleLaw (held : σ → List NodeId)
    (step : σ × World → γ → Observed SessionError α × (σ × World)) (asks : σ → Cache → γ → Prop)
    (s : σ × World) (c : Cache) : Prop where
  exactly : c.DetachedExactlyWhen (c.Cut (held s.1)) s.2
  asked : ∀ command, asks s.1 c command →
    ((step s command).1.IsDetached ↔ c.Cut (held s.1)) ∧
      (c.Cut (held s.1) → (step s command).1.sent = [] ∧ (step s command).2 = s)
  forGood : c.Cut (held s.1) → ∀ commands : List γ,
    let later := commands.foldl (fun s command => (step s command).2) s
    c.Cut (held later.1) ∧ c.Detached later.2 ∧
      ∀ command, asks later.1 c command → (step later command).1.IsDetached

/-- When exactly the nodes in a list are held, a cache is live when no link above it is cut. -/
theorem Cache.live_iff_not_cut {c : Cache} {w : World} {nodes : List NodeId} (h : w.held = nodes) :
    c.Live w ↔ ¬ c.Cut nodes := by
  unfold Live Cut World.holds
  rw [h]
  simp

/-- A command that asks the handle `c` does one operation through it. -/
def AsksThrough (perform : γ → Step σ α) (asks : σ → Cache → γ → Prop) : Prop :=
  ∀ (s : σ × World) (c : Cache) (command : γ), asks s.1 c command →
    (∃ operation : Cache.Operation, operation.isRead = true ∧
      (perform command).Does (c.perform operation) s) ∨
    ∃ f, (perform command).Does (c.patch f) s

variable {perform : γ → Step σ α} {handles : σ → List Cache} {task : σ × World → γ → Task}
  {asks : σ → Cache → γ → Prop} {c : Cache}

theorem AsksThrough.isDetached_iff (h : AsksThrough perform asks) {cut : Prop}
    (hexactly : c.DetachedExactlyWhen cut s.2) {command : γ} (hasks : asks s.1 c command) :
    ((perform command).observe held s).1.IsDetached ↔ cut := by
  rcases h s c command hasks with ⟨operation, hread, hdoes⟩ | ⟨f, hdoes⟩
  · exact hdoes.isDetached_iff.trans (hexactly.asked operation hread)
  · exact hdoes.isDetached_iff.trans (hexactly.updated f)

theorem AsksThrough.observe_of_detached (h : AsksThrough perform asks) (hdetached : c.Detached s.2)
    (hheld : s.2.held = held s.1) {command : γ} (hasks : asks s.1 c command) :
    ((perform command).observe held s).1.sent = [] ∧ ((perform command).observe held s).2 = s := by
  obtain ⟨path, hperform, hpatch⟩ := hdetached
  rcases h s c command hasks with ⟨operation, hread, hdoes⟩ | ⟨f, hdoes⟩
  · exact hdoes.observe_of_error (hperform operation hread) hheld
  · exact hdoes.observe_of_error (hpatch f) hheld

theorem HasHandles.handleLaw (h : HasHandles perform held handles task)
    (hasks : AsksThrough perform asks) {k : Names} (hk : k.next = s.2.fresh)
    (hs : ∀ c ∈ handles s.1, Trait.given.At k c) (hc : c ∈ handles s.1)
    (hlive : c.Live s.2 ↔ ¬ c.Cut (held s.1)) (hheld : c.Cut (held s.1) → s.2.held = held s.1) :
    HandleLaw held (fun s command => (perform command).observe held s) asks s c := by
  have hexactly := Cache.detachedExactlyWhen_of_iff hlive
  refine ⟨hexactly, fun command hcommand => ⟨hasks.isDetached_iff hexactly hcommand, fun hcut => ?_⟩,
    fun hcut commands => ?_⟩
  · exact hasks.observe_of_detached (hexactly.silent hcut) (hheld hcut) hcommand
  · -- the link stays cut, and after a command a handle is detached when a link above it is cut
    intro later
    have hstays : c.Cut (held later.1) := h.cut_run hk hs (hs c hc) hcut commands
    have hlater : later.2.held = held later.1 := Step.held_run (hheld hcut) commands
    have hexactly' := Cache.detachedExactlyWhen_of_iff (Cache.live_iff_not_cut (c := c) hlater)
    exact ⟨hstays, hexactly'.silent hstays,
      fun command hcommand => (hasks.isDetached_iff hexactly' hcommand).mpr hstays⟩

end Asking

/-! ## Workspaces -/

namespace Workspace

/-- The name of the handle that a command asks for its state, or for a change of it. -/
def Command.asks? : Command → Option String
  | .onCache name operation => if operation.isRead then some name else none
  | .update name .. => some name
  | _ => none

/-- A command asks the handle `c`. -/
def Asks (s : Workspace) (c : Cache) (command : Command) : Prop :=
  ∃ name, command.asks? = some name ∧ s.caches.get? name = some c

theorem cache_of_get? {s : Workspace × World} {name : String} {c : Cache}
    (h : s.1.caches.get? name = some c) : cache name s = .ok c s := by
  unfold cache Step.here Step.found
  simp only [bind, EStateM.bind, h]
  rfl

theorem asksThrough : AsksThrough perform Asks := by
  rintro s c command ⟨name, hasks, hc⟩
  cases command with
  | onCache name' operation =>
    rw [Command.asks?] at hasks
    split at hasks
    · rename_i hread
      cases hasks
      exact .inl ⟨operation, hread, .after_lookup (cache_of_get? hc) (Step.does_lift _ _ s)⟩
    · cases hasks
  | update name' field value =>
    cases hasks
    have hpatch := Step.does_lift (c.patch (assign field value)) (fun _ => Answer.nothing) s
    exact .inr ⟨assign field value, .after_lookup (cache_of_get? hc) hpatch⟩
  | _ => nomatch hasks

theorem handleLaw_stateAfter {address : String} {port : UInt16} {username : String}
    {minDelay : Duration} {script : Script} {w w' : World} {s : Workspace}
    (hstart : start address port username minDelay script w = .ok s w') (commands : List Command)
    {c : Cache} (hc : c ∈ (stateAfter (s, w') commands).1.handles) :
    let s' := stateAfter (s, w') commands
    HandleLaw held step Asks s' c := by
  intro s'
  have hrun : start address port username minDelay script w = .ok _ _ := rfl
  have hnone : s.handles = [] := by
    cases hrun.symm.trans hstart
    rfl
  have hne : commands ≠ [] := by
    -- a new workspace has no handles
    rintro rfl
    exact absurd (hnone ▸ hc) List.not_mem_nil
  have hheld : s'.2.held = held s'.1 := Step.held_run_of_ne_nil hne
  obtain ⟨k, hk, hs⟩ := exists_names hstart (t := .given) rfl commands
  exact hasHandles.handleLaw asksThrough hk hs hc (Cache.live_iff_not_cut hheld) fun _ => hheld

end Workspace

/-! ## Bridges -/

/-- Each handle of a new bridge is its root, or reads from it. -/
theorem Bridge.above_of_connect {config : Config} {transport : TransportId} {w w' : World} {b : Bridge}
    (h : connect config transport w = .ok b w') {c : Cache} (hc : c ∈ b.handles) :
    ∀ node ∈ c.above, node ∈ b.held := by
  have hrun : connect config transport w = .ok _ _ := rfl
  cases hrun.symm.trans h
  have hhandles : c ∈ [_, _, _, _, _, _] := hc
  simp only [List.mem_cons, List.not_mem_nil, or_false] at hhandles
  rcases hhandles with rfl | hview
  · exact fun _ hnode => absurd hnode List.not_mem_nil
  · have habove : c.above = [w.fresh + 1] := by
      rcases hview with rfl | rfl | rfl | rfl | rfl <;> rfl
    rw [habove]
    intro node hnode
    rw [List.mem_singleton.mp hnode]
    simp [held, Cache.node]

namespace BridgeSession

/-- A command asks the handle `c` for its state. -/
def Asks (s : BridgeSession) (c : Cache) (command : Command) : Prop :=
  ∃ name operation, command = .onKept name operation ∧ operation.isRead = true ∧
    s.kept.get? name = some c

theorem asksThrough : AsksThrough perform Asks := by
  rintro s c command ⟨name, operation, rfl, hread, hc⟩
  have hhere : (Step.here : Step BridgeSession BridgeSession) s = .ok s.1 s := rfl
  have hfound : (Step.found (.unknown name) (s.1.kept.get? name) : Step BridgeSession Cache) s =
      .ok c s := by
    rw [hc]
    rfl
  exact .inl ⟨operation, hread, .after_lookup hhere (.after_lookup hfound (Step.does_lift _ _ s))⟩

/-- All handles of a new session are live. -/
theorem start_handles {config : Config} {script : Script} {w w' : World} {s : BridgeSession}
    (h : start config script w = .ok s w') {c : Cache} (hc : c ∈ s.handles) :
    c.Live w' ∧ ¬ c.Cut (held s) := by
  obtain ⟨-, hheld⟩ := start_regular h
  obtain ⟨transport, u, -, hrest⟩ := exists_of_bind_ok h
  obtain ⟨b, u', hconnect, hlast⟩ := exists_of_bind_ok hrest
  cases hlast
  -- nothing is kept beside the bridge yet
  have hb : c ∈ b.handles := by simpa [handles, Table.values, Table.empty] using hc
  have habove (node : NodeId) (hnode : node ∈ c.above) : node ∈ held ⟨b, .empty, .empty⟩ :=
    List.mem_append_left _ (List.mem_append_left _ (Bridge.above_of_connect hconnect hb node hnode))
  refine ⟨fun node hnode => hheld node (habove node hnode), ?_⟩
  rintro ⟨node, hnode, hnot⟩
  exact hnot (habove node hnode)

theorem handleLaw_stateAfter {config : Config} {script : Script} {w w' : World} {s : BridgeSession}
    (hstart : start config script w = .ok s w') (commands : List Command) {c : Cache}
    (hc : c ∈ (stateAfter (s, w') commands).1.handles) :
    let s' := stateAfter (s, w') commands
    HandleLaw held step Asks s' c := by
  intro s'
  obtain ⟨k, hk, hs⟩ := exists_names hstart (t := .given) rfl commands
  by_cases hnil : commands = []
  · subst hnil
    obtain ⟨hlive, hnot⟩ := start_handles hstart hc
    exact hasHandles.handleLaw asksThrough hk hs hc ⟨fun _ => hnot, fun _ => hlive⟩
      fun hcut => absurd hcut hnot
  · have hheld : s'.2.held = held s'.1 := Step.held_run_of_ne_nil hnil
    exact hasHandles.handleLaw asksThrough hk hs hc (Cache.live_iff_not_cut hheld) fun _ => hheld

end BridgeSession

/-- **Detachment.** Whatever a session has done so far, an operation through any of its handles, be it
one under a name, of a collection or an entry, or of a change, fails as detached exactly when the node
of a cache above the handle is not held any more by any handle of the session. It then sends nothing
and changes nothing, and whatever the session goes on to do, the link stays cut and every operation
through the handle fails so. -/
theorem detached_exactly_when_cut :
    (∀ (address : String) (port : UInt16) (username : String) (minDelay : Duration)
        (script : Script) (w w' : World) (s : Workspace),
      Workspace.start address port username minDelay script w = .ok s w' →
      ∀ commands, let s' := Workspace.stateAfter (s, w') commands
        ∀ c ∈ s'.1.handles, HandleLaw Workspace.held Workspace.step Workspace.Asks s' c) ∧
    (∀ (config : Config) (script : Script) (w w' : World) (s : BridgeSession),
      BridgeSession.start config script w = .ok s w' →
      ∀ commands, let s' := BridgeSession.stateAfter (s, w') commands
        ∀ c ∈ s'.1.handles,
          HandleLaw BridgeSession.held BridgeSession.step BridgeSession.Asks s' c) :=
  ⟨fun _ _ _ _ _ _ _ _ hstart commands _ hc => Workspace.handleLaw_stateAfter hstart commands hc,
    fun _ _ _ _ _ hstart commands _ hc => BridgeSession.handleLaw_stateAfter hstart commands hc⟩

/-- A view of a light and a view of its state are made, and the first of them is dropped: the second
is detached though its root is still held, and remains so when the first one is made again. -/
theorem state_detached_from_dropped_light :
    let s := Lights.workspace []
    let light := Workspace.Command.newChild "first" "all" "1"
    let commands := [.newRoot "all" "main" "/lights" .never, light, .newChild "state" "first" "state",
      .dropCache "first"]
    let s' := Workspace.stateAfter s commands
    let c : Cache := .child (.child (.root 2 "/lights" Lights.channel .never) 3 "1") 4 "state"
    s'.1.caches.get? "state" = some c ∧ Workspace.held s'.1 = [4, 2] ∧
      (Workspace.step s' (.onCache "state" .refresh)).1.IsDetached ∧
      c.Detached (Workspace.stateAfter s' [light]).2 := by
  intro s light commands s' c
  have hget : s'.1.caches.get? "state" = some c := by decide +kernel
  have hheld : Workspace.held s'.1 = [4, 2] := by decide +kernel
  have hcut : c.Cut (Workspace.held s'.1) := by
    rw [hheld]
    exact ⟨3, by decide, by decide⟩
  have hstart : Workspace.start "192.168.2.116" 80 "user" (.millis 0) (Lights.script [])
      World.start = .ok s.1 s.2 := Lights.start_eq []
  have hmem : c ∈ s'.1.handles :=
    List.mem_append_left _ (List.mem_append_left _ (Table.mem_values hget))
  -- What the workspace is does not matter any more, and unfolding it would run the commands.
  clear_value s
  obtain ⟨hworkspaces, -⟩ := detached_exactly_when_cut
  have hlaw := hworkspaces _ _ _ _ _ _ _ _ hstart commands c hmem
  obtain ⟨-, hdetached, -⟩ := hlaw.forGood hcut [light]
  exact ⟨hget, hheld, (hlaw.asked (.onCache "state" .refresh) ⟨"state", rfl, hget⟩).1.mpr hcut,
    hdetached⟩

end LightBridge
