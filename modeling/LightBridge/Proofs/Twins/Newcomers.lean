import LightBridge.Proofs.Change.Request
import LightBridge.Proofs.Session.Run
import LightBridge.Proofs.Twins.Itself

/-!
# Newcomers beside a past of their own

Two worlds that have nothing in common but the instant, and the replies that are to come through one
transport of each, correspond as far as new names go. What was kept from before then stands apart: a
command that uses it does nothing to what is new.
-/

namespace LightBridge

variable {asked : Request → Prop} {endless : Prop} {since n m : Nat} {transport : TransportId}

namespace Twins

/-- Runs out of two worlds, compared from the names on that these have not given out. -/
def newcomers (w w' : World) (transport : TransportId) {transport' : TransportId}
    (htransport : transport' < w'.fresh) (asked : Request → Prop) (endless : Prop) : Twins where
  since := w.fresh
  since' := w'.fresh
  transport := transport
  transport' := transport'
  apart a _ _ h := by
    have hfresh : w'.fresh ≤ a - w.fresh + w'.fresh := Nat.le_add_left ..
    rw [h] at hfresh
    exact Nat.not_lt.mpr hfresh htransport
  asked := asked
  endless := endless

theorem Worlds.newcomers {w w' : World} {transport' : TransportId} (hw : w.Tidy) (hw' : w'.Tidy)
    (hnow : w'.now = w.now) (htransport : transport < w.fresh) (htransport' : transport' < w'.fresh)
    (hscript : w'.script transport' = w.script transport) :
    (Twins.newcomers w w' transport htransport' asked endless).Worlds w w' := by
  have hname (a : Nat) : w'.fresh ≤ a - w.fresh + w'.fresh := Nat.le_add_left ..
  refine ⟨hnow, Nat.le_refl _, ?_, htransport, fun a ha => ?_, fun a ha => ?_, fun a ha => ?_,
    fun a ha => ?_, hw⟩
  · show w'.fresh = w.fresh - w.fresh + w'.fresh
    rw [Nat.sub_self, Nat.zero_add]
  · rw [hw.slots a ha]
    exact hw'.slots _ (hname a)
  · by_cases heq : a = transport
    · rw [heq, ← hscript]
      exact congrArg w'.script (if_pos rfl)
    · -- nothing is behind a transport that is still to be given out
      have ha := ha.resolve_right heq
      have hacross : (Twins.newcomers w w' transport htransport' asked endless).across.transport a =
          a - w.fresh + w'.fresh := if_neg heq
      rw [hacross, World.script, World.script, hw.transports a ha, hw'.transports _ (hname a)]
  · rw [hw.snapshots a ha]
    exact hw'.snapshots _ (hname a)
  · rw [hw.not_holds ha]
    exact hw'.not_holds (hname a)

variable {α : Type} [Holder α] {t : Twins} {T T' : Table String α}

/-- Whatever a table has was there before. -/
def AllFormer (since : Nat) (T : Table String α) : Prop := T.Plain ∧ ∀ name, Former since (T.get? name)

/-- Either table has something under a name. -/
def InEither (T T' : Table String α) (name : String) : Prop :=
  ¬ (T.get? name = none ∧ T'.get? name = none)

theorem Tables.apart (hT : AllFormer t.since T) (hT' : AllFormer t.since' T') :
    t.Tables n (InEither T T') T T' := by
  refine ⟨fun name => ?_, hT.1, hT'.1⟩
  by_cases h : T.get? name = none ∧ T'.get? name = none
  · rw [h.1, h.2]
    exact .inl ⟨rfl, nofun⟩
  · exact .inr ⟨h, hT.2 name, hT'.2 name⟩

theorem Tables.allFormer (h : t.Tables n (fun _ => False) T T') (hnm : n ≤ m) : AllFormer m T := by
  refine ⟨h.plain, fun name a ha node hnode => ?_⟩
  have hwithin := (h.shared name not_false).2 a ha
  exact Nat.lt_of_lt_of_le (Holder.has hwithin node hnode).2 hnm

theorem Tables.mono_apart {apart apart' : String → Prop} (h : t.Tables n apart T T')
    (happart : ∀ name, apart name → apart' name) : t.Tables n apart' T T' :=
  ⟨fun name => (h.entries name).imp_right fun h => ⟨happart name h.1, h.2⟩, h.plain, h.plain'⟩

/-- Only names under which something from before is kept need be set apart. -/
theorem Tables.narrow {apart : String → Prop} (h : t.Tables n apart T T') :
    t.Tables n (fun name => apart name ∧ Former t.since (T.get? name)) T T' :=
  ⟨fun name => (h.entries name).imp_right fun h => ⟨⟨h.1, h.2.1⟩, h.2⟩, h.plain, h.plain'⟩

/-- A table beside itself, with something from before under a name that is set apart. -/
theorem Tables.setFormer {apart : String → Prop}
    (h : (Twins.itself since transport asked endless).Tables n apart T T) {name : String}
    (hname : apart name) {a : α} (ha : Former since (some a)) :
    (Twins.itself since transport asked endless).Tables n apart (T.set name a) (T.set name a) := by
  refine ⟨fun other => ?_, h.plain.set name a, h.plain.set name a⟩
  by_cases heq : other = name
  · rw [heq, Table.get?_set_self]
    exact .inr ⟨hname, ha, ha⟩
  · rw [Table.get?_set_of_ne _ _ heq]
    exact h.entries other

end Twins

namespace BridgeSession

variable {t : Twins} {K C K' C' : String → Prop} {s s' : BridgeSession × World}

theorem StatesAlike.mono_apart (h : StatesAlike t K C s s') (hK : ∀ name, K name → K' name)
    (hC : ∀ name, C name → C' name) : StatesAlike t K' C' s s' :=
  ⟨h.worlds, h.sessions.bridge, h.sessions.kept.mono_apart hK, h.sessions.changes.mono_apart hC⟩

/-! ## A session beside itself -/

theorem Reachable.next (h : Reachable s) (c : Command) : Reachable (step s c).2 := by
  obtain ⟨config, script, s₁, w₁, commands, hstart, rfl⟩ := h
  refine ⟨config, script, s₁, w₁, commands ++ [c], hstart, ?_⟩
  rw [stateAfter, stateAfter, List.foldl_append]
  rfl

theorem cache_perform (c : Change) (operation : Change.Operation) :
    (c.perform operation).1.cache = c.cache := by
  cases operation with
  | set setters => exact Change.cache_setAll c setters
  | trim | pending => rfl

section Former

variable {kept changes : String → Prop} {name : String}

/-- A session corresponds to itself, and what it keeps as a change under a name was there before. -/
def HasFormer (t : Twins) (kept changes : String → Prop) (n : Nat) (name : String)
    (s : BridgeSession) : Prop :=
  t.Sessions kept changes n s s ∧ Twins.Former t.since (s.changes.get? name)

theorem keeps_onKept {I : BridgeSession → Prop} (operation : Cache.Operation) :
    Keeps I (fun _ => True) (perform (.onKept name operation)) := by
  refine Keeps.here.bind fun s _ => ?_
  refine (Keeps.found (Q := fun _ => True) fun _ _ => trivial).bind fun c _ => ?_
  exact (Keeps.actStep _).told

theorem keeps_change_former : Keeps (HasFormer t kept changes n name)
    (fun c => Twins.Former t.since (some c)) (change name) :=
  Keeps.here.bind fun _ hs => .found fun _ hc => hc ▸ hs.2

theorem keeps_onChange_former (hname : changes name) (operation : Change.Operation) :
    Keeps (HasFormer (.itself since transport asked endless) kept changes n name) (fun _ => True)
      (perform (.onChange name operation)) := by
  refine keeps_change_former.bind fun c hc => .told (.update fun s hs => ?_)
  -- the change may be another one afterwards, but it has the cache that it had
  have hformer : Twins.Former since (some (c.perform operation).1) := by
    intro _ hmem node hnode
    cases hmem
    have hnodes : Holder.nodes (c.perform operation).1 = Holder.nodes c :=
      congrArg (·.toList.map Cache.node) (cache_perform c operation)
    rw [hnodes] at hnode
    exact hc c rfl node hnode
  refine ⟨⟨hs.1.bridge, hs.1.kept, hs.1.changes.setFormer hname hformer⟩, ?_⟩
  rwa [Table.get?_set_self]

theorem keeps_commit_former : Keeps (HasFormer t kept changes n name) (fun _ => True)
    (perform (.commit name)) := by
  refine keeps_change_former.bind fun c _ => ?_
  refine Keeps.bind (Q := fun _ => True) (.update fun s hs => ?_) fun _ _ => (Keeps.actStep _).told
  refine ⟨⟨hs.1.bridge, hs.1.kept, hs.1.changes.erase name⟩, ?_⟩
  rw [Table.get?_erase, if_pos rfl]
  exact nofun

/-- A command uses something from before under a name that is set apart. -/
def Command.UsesFormer (since : Nat) (kept changes : String → Prop) (s : BridgeSession)
    (c : Command) : Prop :=
  (∃ name ∈ c.keptUsed, kept name ∧ Twins.Former since (s.kept.get? name)) ∨
    ∃ name ∈ c.changesUsed, changes name ∧ Twins.Former since (s.changes.get? name)

/-- What such a command does to the session: the bridge stays, and what is kept stays or is not kept
any more. -/
theorem sessions_of_usesFormer {s : BridgeSession}
    (h : (Twins.itself since transport asked endless).Sessions kept changes n s s) {c : Command}
    (hc : c.UsesFormer since kept changes s) (w : World) :
    (Twins.itself since transport asked endless).Sessions kept changes n
      (after (perform c) (s, w)).1 (after (perform c) (s, w)).1 := by
  rcases hc with ⟨name, hused, -⟩ | ⟨name, hused, hname, hformer⟩
  · cases c with
    | onKept key operation =>
      exact (keeps_onKept (I := fun s => Twins.Sessions _ kept changes n s s) operation (s, w) h).1
    | _ => nomatch hused
  · cases c with
    | onChange key operation =>
      obtain rfl := List.mem_singleton.mp hused
      exact (keeps_onChange_former hname operation (s, w) ⟨h, hformer⟩).1.1
    | commit key =>
      obtain rfl := List.mem_singleton.mp hused
      exact (keeps_commit_former (s, w) ⟨h, hformer⟩).1.1
    | _ => nomatch hused

theorem Command.UsesFormer.reconnects {s : BridgeSession} {c : Command}
    (hc : c.UsesFormer since kept changes s) : c.reconnects = false := by
  cases c with
  | setUsername | setTransport | pair => rcases hc with ⟨_, hused, -⟩ | ⟨_, hused, -⟩ <;> nomatch hused
  | _ => rfl

/-- A session beside itself stays so, whatever is done with what was kept before. -/
theorem StatesAlike.step_itself
    (h : StatesAlike (.itself since transport asked True) kept changes s s) (hs : Reachable s)
    {c : Command} (hc : c.reconnects = true → ∀ r, asked r) :
    StatesAlike (.itself since transport asked True) kept changes (step s c).2 (step s c).2 := by
  by_cases hused : c.UsesFormer since kept changes s.1
  · have hgrown := fresh_le_step s hused.reconnects
    have hsessions := sessions_of_usesFormer h.sessions hused s.2
    refine ⟨.itself (hs.next c).itself.worlds.tidy (Nat.le_trans h.worlds.since hgrown)
      (Nat.lt_of_lt_of_le h.worlds.old hgrown), ?_⟩
    rw [step_eq] at hgrown ⊢
    exact (Twins.sessions _ _ _).mono hgrown hsessions
  · -- nothing from before is used, so both do the same as any two that correspond
    have hnarrow : StatesAlike (.itself since transport asked True) _ _ s s :=
      ⟨h.worlds, h.sessions.bridge, h.sessions.kept.narrow, h.sessions.changes.narrow⟩
    obtain ⟨hkept, hchanges⟩ := not_or.mp hused
    refine (step_alike hnarrow ⟨fun _ => trivial, hc, fun name hname h => ?_, fun name hname h => ?_⟩).2
      |>.mono_apart (fun _ h => h.1) fun _ h => h.1
    · exact hkept ⟨name, hname, h⟩
    · exact hchanges ⟨name, hname, h⟩

theorem StatesAlike.run_itself
    (h : StatesAlike (.itself since transport asked True) kept changes s s) (hs : Reachable s)
    (commands : List Command) (hcommands : ∀ c ∈ commands, c.reconnects = true → ∀ r, asked r) :
    StatesAlike (.itself since transport asked True) kept changes (stateAfter s commands)
      (stateAfter s commands) := by
  induction commands generalizing s with
  | nil => exact h
  | cons c rest ih =>
    exact ih (h.step_itself hs (hcommands c List.mem_cons_self)) (hs.next c) fun d hd => hcommands d (List.mem_cons_of_mem c hd)

end Former

end BridgeSession

end LightBridge
