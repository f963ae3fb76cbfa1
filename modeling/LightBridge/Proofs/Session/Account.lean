import LightBridge.Proofs.Cache.Requests
import LightBridge.Proofs.Session.Run
import LightBridge.Proofs.Session.Trait

/-!
# Runs as deeds

What a run of a session does to its world is told by deeds: those of each command serve the task that
the command has in the state in which it is given, and reach only roots that a handle of the session
reads from then, or that the command makes. So what holds of such deeds in a row holds of every run.
-/

namespace LightBridge

/-- A deed that reaches only roots with `P`, and fetches them as they were made. -/
def Deed.Reaches (P : Cache → Prop) : Deed → Prop
  | .fetch node path channel interval => P (.root node path channel interval)
  | .update c _ => P c.top
  | .event _ => True

/-- What serves a task reaches known roots only. -/
theorem Task.Admits.reaches {task : Task} {roots : List Cache} {P : Cache → Prop}
    (hP : ∀ r ∈ roots, P r) (w : World) (d : Deed) (h : task.Admits roots w d) : d.Reaches P := by
  cases d with
  | event e => trivial
  | fetch | update => exact hP _ h.1

/-! ## Any session -/

section Accounts

variable {σ γ α : Type}

/-- Deeds that account for a run. The deeds of each command serve its task, where `roots` are the
roots that the handles of the session read from, and do to the world what the command does. They reach
roots that a handle reads from when the command is given, or that get their names meanwhile. Then the
nodes are given up that the session does not hold any more. -/
inductive Accounts (perform : γ → Step σ α) (held : σ → List NodeId) (handles : σ → List Cache)
    (task : σ × World → γ → Task) (roots : List Cache) : σ × World → List γ → List Deed → Prop
  | nil {s : σ × World} (hknown : ∀ c ∈ handles s.1, c.top ∈ roots) :
    Accounts perform held handles task roots s [] []
  | cons {s : σ × World} {command : γ} {rest : List γ} {deeds later : List Deed}
    (hknown : ∀ c ∈ handles s.1, c.top ∈ roots)
    (hserves : s.2.Follows ((task s command).Admits roots) deeds)
    (hreaches : ∀ d ∈ deeds, d.Reaches fun r => (∃ c ∈ handles s.1, c.top = r) ∨
      s.2.fresh ≤ r.rootNode ∧ r.rootNode < (after (perform command) s).2.fresh)
    (hworld : (after (perform command) s).2 = s.2.enactAll deeds)
    (hrest : Accounts perform held handles task roots ((perform command).observe held s).2 rest
      later) :
    Accounts perform held handles task roots s (command :: rest)
      (deeds ++ .event (.settle (held (after (perform command) s).1)) :: later)

variable {perform : γ → Step σ α} {held : σ → List NodeId} {handles : σ → List Cache}
  {task : σ × World → γ → Task} {roots : List Cache} {s : σ × World} {commands : List γ}
  {deeds : List Deed}

namespace Accounts

/-- The deeds of a command, and the nodes given up after it, make the world that the next command
finds. -/
theorem world_observe {command : γ} {first : List Deed}
    (hworld : (after (perform command) s).2 = s.2.enactAll first) :
    ((perform command).observe held s).2.2 =
      s.2.enactAll (first ++ [.event (.settle (held (after (perform command) s).1))]) := by
  rw [Step.state_observe, World.enactAll_append, ← hworld]
  rfl

theorem world (h : Accounts perform held handles task roots s commands deeds) :
    (commands.foldl (fun s c => ((perform c).observe held s).2) s).2 = s.2.enactAll deeds := by
  induction h with
  | nil => rfl
  | cons _ _ _ hworld _ ih =>
    rw [List.foldl_cons, ih, world_observe hworld, ← World.enactAll_append, List.append_assoc]
    rfl

/-- What the tasks of all commands admit, and giving up nodes, holds of all deeds. -/
theorem follows {P : World → Deed → Prop}
    (h : Accounts perform held handles task roots s commands deeds)
    (hP : ∀ c ∈ commands, ∀ s w d, (task s c).Admits roots w d → P w d)
    (hsettle : ∀ w nodes, P w (.event (.settle nodes))) : s.2.Follows P deeds := by
  induction h with
  | nil => trivial
  | @cons s c rest first later _ hserves _ hworld _ ih =>
    have hlater := ih fun c' hc' => hP c' (List.mem_cons_of_mem c hc')
    rw [world_observe hworld, World.enactAll_append] at hlater
    rw [World.follows_append]
    exact ⟨hserves.mono (hP c List.mem_cons_self s), hsettle _ _, hlater⟩

theorem proper (h : Accounts perform held handles task roots s commands deeds) :
    ∀ d ∈ deeds, d.Proper :=
  (h.follows (fun _ _ _ w d hd => hd.proper w d) fun _ _ => trivial).forall

/-- Every root that is fetched or updated is one that a handle was made for. -/
theorem reaches (h : Accounts perform held handles task roots s commands deeds) :
    ∀ d ∈ deeds, d.Reaches (· ∈ roots) :=
  (h.follows (fun _ _ _ => Task.Admits.reaches fun _ hr => hr) fun _ _ => trivial).forall

/-- When no command asks for more, roots are fetched only when they are stale. -/
theorem timely (h : Accounts perform held handles task roots s commands deeds)
    (hcommands : ∀ c ∈ commands, ∀ s r, ¬ (task s c).refetches r) :
    s.2.Follows (fun w d => d.Timely w) deeds :=
  h.follows (fun c hc s w d hd => hd.timely (hcommands c hc s) w d) fun _ _ => trivial

/-- When no command reads in another way, all that is read is fetched. -/
theorem quiet (h : Accounts perform held handles task roots s commands deeds)
    (hcommands : ∀ c ∈ commands, ∀ s r, ¬ (task s c).asked r) : ∀ d ∈ deeds, d.Quiet := by
  refine (h.follows (fun c hc s _ d hd => ?_) fun _ _ => trivial).forall
  cases d with
  | event e =>
    cases e with
    | attempt channel r => exact fun hget => hcommands c hc s r (hd hget)
    | _ => trivial
  | fetch | update => trivial

end Accounts

/-- What a session has in the way of handles, and what its commands are for. -/
structure HasHandles (perform : γ → Step σ α) (held : σ → List NodeId) (handles : σ → List Cache)
    (task : σ × World → γ → Task) : Prop where
  held_eq : ∀ s, held s = (handles s).map (·.node)
  passes : ∀ (t : Trait) (n : Names) (command : γ) (s : σ × World),
    PassesOnFrom t (task s command) n (t.toEnduring.all.on handles) .any (perform command) s

namespace HasHandles

variable {t : Trait} {k : Names}

/-- When all handles of a session have a trait, so have those after a run. -/
theorem exists_names_run (h : HasHandles perform held handles task) (hk : k.next = s.2.fresh)
    (hsince : t.since ≤ k.next) (hs : ∀ c ∈ handles s.1, t.At k c) (commands : List γ) :
    let s' := commands.foldl (fun s c => ((perform c).observe held s).2) s
    ∃ l : Names, l.next = s'.2.fresh ∧ ∀ c ∈ handles s'.1, t.At l c := by
  induction commands generalizing s k with
  | nil => exact ⟨k, hk, hs⟩
  | cons c rest ih =>
    obtain ⟨l, -, hkl, hl, -, -, hs', -⟩ := h.passes t k c s k hk hsince k.le_refl hs
    have hfresh : l.next = ((perform c).observe held s).2.2.fresh := by rwa [Step.fresh_observe]
    have hlater : ∀ c' ∈ handles ((perform c).observe held s).2.1, t.At l c' := by
      rwa [Step.fst_observe]
    exact ih hfresh (Nat.le_trans hsince hkl.next) hlater

/-- What a command does, when the roots are known that the handles of the session read from. -/
theorem exists_deeds (h : HasHandles perform held handles task) (hk : k.next = s.2.fresh)
    (hs : ∀ c ∈ handles s.1, c.top ∈ k.roots) (command : γ) :
    ∃ l deeds, k ≤ l ∧ l.next = (after (perform command) s).2.fresh ∧
      (∀ c ∈ handles (after (perform command) s).1, c.top ∈ l.roots) ∧
      s.2.Follows ((task s command).Admits l.roots) deeds ∧
      (∀ d ∈ deeds, d.Reaches fun r => (∃ c ∈ handles s.1, c.top = r) ∨
        s.2.fresh ≤ r.rootNode ∧ r.rootNode < (after (perform command) s).2.fresh) ∧
      (after (perform command) s).2 = s.2.enactAll deeds := by
  -- the command begins with the roots only that the handles read from
  let nodes := (handles s.1).map (·.rootNode)
  have hown : ∀ c ∈ handles s.1, Trait.reading.At (k.only nodes) c := fun c hc =>
    Names.mem_only.mpr ⟨hs c hc, List.mem_map.mpr ⟨c, hc, rfl⟩⟩
  obtain ⟨l, deeds, hkl, hl, hdeeds, hworld, hs', -⟩ :=
    h.passes .reading (k.only nodes) command s (k.only nodes) hk (Nat.zero_le _) (Names.le_refl _) hown
  have hjoin : ∀ r ∈ l.roots, r ∈ (k.join l hkl.next).roots := fun _ => Names.mem_join hkl
  refine ⟨k.join l hkl.next, deeds, Names.le_join (k := k) hkl.next, hl,
    fun c hc => hjoin _ (hs' c hc), hdeeds.mono (Task.Admits.mono hjoin), ?_, hworld⟩
  refine (hdeeds.mono (Task.Admits.reaches fun r hr => ?_)).forall
  rcases hkl.new r hr with hold | hnew
  · obtain ⟨hroot, hnode⟩ := Names.mem_only.mp hold
    obtain ⟨c, hc, hnode⟩ := List.mem_map.mp hnode
    -- roots are apart, so the handle reads from this one
    exact .inl ⟨c, hc, List.inj_on_of_nodup_map k.distinct (hs c hc) hroot hnode⟩
  · exact .inr ⟨hk ▸ hnew, hl ▸ l.given r hr⟩

/-- There are deeds that account for a run. -/
theorem exists_accounts (h : HasHandles perform held handles task) (hk : k.next = s.2.fresh)
    (hs : ∀ c ∈ handles s.1, c.top ∈ k.roots) (commands : List γ) :
    ∃ l deeds, k ≤ l ∧ Accounts perform held handles task l.roots s commands deeds := by
  induction commands generalizing s k with
  | nil => exact ⟨k, [], k.le_refl, .nil hs⟩
  | cons c rest ih =>
    obtain ⟨m, first, hkm, hm, hs', hfirst, hreaches, hworld⟩ := h.exists_deeds hk hs c
    have hfresh : m.next = ((perform c).observe held s).2.2.fresh := by rwa [Step.fresh_observe]
    have hlater : ∀ c' ∈ handles ((perform c).observe held s).2.1, c'.top ∈ m.roots := by
      rwa [Step.fst_observe]
    obtain ⟨l, later, hml, hrest⟩ := ih hfresh hlater
    refine ⟨l, _, Names.le_trans hkm hml, .cons (fun c' hc' => ?_) ?_ hreaches hworld hrest⟩
    · exact hml.roots _ (hkm.roots _ (hs c' hc'))
    · exact hfirst.mono (Task.Admits.mono hml.roots)

end HasHandles

end Accounts

/-! ## Workspaces and bridges -/

namespace Workspace

/-- Deeds that account for a run of a workspace. -/
abbrev Accounts (roots : List Cache) (s : Workspace × World) (commands : List Command)
    (deeds : List Deed) : Prop :=
  LightBridge.Accounts perform held handles task roots s commands deeds

theorem hasHandles : HasHandles perform held handles task :=
  ⟨held_eq_handles, fun t _ command s => bearing_eq t ▸ passes_perform command s⟩

/-- Whatever a workspace has done so far, its handles have a trait. -/
theorem exists_names {address : String} {port : UInt16} {username : String} {minDelay : Duration}
    {script : Script} {w w' : World} {s : Workspace}
    (hstart : start address port username minDelay script w = .ok s w') {t : Trait}
    (hsince : t.since = 0) (earlier : List Command) :
    let s' := stateAfter (s, w') earlier
    ∃ k : Names, k.next = s'.2.fresh ∧ ∀ c ∈ handles s'.1, t.At k c := by
  have hrun : start address port username minDelay script w = .ok _ _ := rfl
  have hnone : ∀ c ∈ handles s, t.At (.rootless w'.fresh) c := by
    cases hrun.symm.trans hstart
    exact nofun
  exact hasHandles.exists_names_run (s := (s, w')) rfl (hsince ▸ Nat.zero_le _) hnone earlier

end Workspace

namespace BridgeSession

/-- Deeds that account for a run of a session with a bridge. -/
abbrev Accounts (roots : List Cache) (s : BridgeSession × World) (commands : List Command)
    (deeds : List Deed) : Prop :=
  LightBridge.Accounts perform held handles task roots s commands deeds

theorem hasHandles : HasHandles perform held handles task :=
  ⟨held_eq_handles, fun t _ command s => bearing_eq t ▸ passes_perform command s⟩

/-- A new session has the handles of its bridge. -/
theorem exists_names_of_start {config : Config} {script : Script} {w w' : World} {s : BridgeSession}
    (hstart : start config script w = .ok s w') {t : Trait} (hsince : t.since = 0) :
    ∃ k : Names, k.next = w'.fresh ∧ ∀ c ∈ handles s, t.At k c := by
  obtain ⟨transport, u, -, hrest⟩ := exists_of_bind_ok hstart
  obtain ⟨b, u', hconnect, hlast⟩ := exists_of_bind_ok hrest
  cases hlast
  have hpasses : Act.Passes t .idle (.rootless u.fresh) (Bridge.bearing t)
      (Bridge.connect config transport) := Bridge.passes_connect config transport
  obtain ⟨l, -, -, hl, -, -, -, hok⟩ := hpasses u (.rootless u.fresh) rfl
    (hsince ▸ Nat.zero_le _) (Names.le_refl _) trivial
  rw [after_of_ok hconnect] at hl
  refine ⟨l, hl, fun c hc => Bridge.bears_iff.mp (hok _ _ hconnect) c ?_⟩
  -- nothing is kept beside the bridge yet
  simpa [handles, Table.values, Table.empty] using hc

/-- Whatever a session has done so far, its handles have a trait. -/
theorem exists_names {config : Config} {script : Script} {w w' : World} {s : BridgeSession}
    (hstart : start config script w = .ok s w') {t : Trait} (hsince : t.since = 0)
    (earlier : List Command) :
    let s' := stateAfter (s, w') earlier
    ∃ k : Names, k.next = s'.2.fresh ∧ ∀ c ∈ handles s'.1, t.At k c := by
  obtain ⟨k, hk, hs⟩ := exists_names_of_start hstart hsince
  exact hasHandles.exists_names_run (s := (s, w')) hk (hsince ▸ Nat.zero_le _) hs earlier

end BridgeSession

end LightBridge
