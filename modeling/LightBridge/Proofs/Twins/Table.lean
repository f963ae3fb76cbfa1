import LightBridge.Proofs.Twins.Bridge

/-!
# Tables of caches and changes side by side

What is kept under a name keeps nodes from being given up. Two tables correspond when they have under
each name what corresponds; some names may be set apart, under which either table has something of
its own that belongs to what was before.
-/

namespace LightBridge

variable {t : Twins} {n m : Nat} {α : Type}

/-- Things that keep nodes from being given up. -/
class Holder (α : Type) extends Named α where
  nodes : α → List NodeId
  nodes_rename (r : Renaming) (a : α) : nodes (Named.rename r a) = (nodes a).map r.name
  has {t : Twins} {n : Nat} {a : α} : Named.Within t n a → ∀ node ∈ nodes a, t.Has n node

instance : Holder Cache where
  nodes c := [c.node]
  nodes_rename r c := by rw [List.map_singleton, ← Cache.node_rename]; rfl
  has h node hnode := by
    rw [List.mem_singleton.mp hnode]
    exact Cache.Within.node h

instance : Holder Change where
  nodes c := c.cache.toList.map (·.node)
  nodes_rename r c := by
    show ((c.cache.map (Cache.rename r)).toList.map (·.node)) = _
    cases c.cache with
    | none => rfl
    | some cache => exact congrArg (fun node => [node]) (Cache.node_rename r cache)
  has h node hnode := by
    obtain ⟨cache, hcache, rfl⟩ := List.mem_map.mp hnode
    exact Cache.Within.node (h.cache cache (Option.mem_toList.mp hcache))

/-- No entry of a table is hidden behind another one. -/
def Table.Plain (T : Table String α) : Prop := ∀ e ∈ T.entries, T.get? e.1 = some e.2

namespace Table

variable {T : Table String α}

theorem Plain.empty : (Table.empty : Table String α).Plain := fun _ he => absurd he List.not_mem_nil

theorem Plain.erase (h : T.Plain) (name : String) : (T.erase name).Plain := by
  intro e he
  obtain ⟨he, hne⟩ := List.mem_filter.mp he
  rw [get?_erase, if_neg (of_decide_eq_true hne), h e he]

theorem Plain.set (h : T.Plain) (name : String) (a : α) : (T.set name a).Plain := by
  intro e he
  rcases List.mem_cons.mp he with rfl | he
  · exact get?_set_self T name a
  · have herased := h.erase name e he
    have hne : e.1 ≠ name := of_decide_eq_true (List.mem_filter.mp he).2
    rwa [get?_set_of_ne T a hne, ← if_neg (c := e.1 = name) (t := none) (e := T.get? e.1) hne,
      ← get?_erase]

theorem Plain.mem_values_iff (h : T.Plain) {a : α} :
    a ∈ T.values ↔ ∃ name, T.get? name = some a := by
  constructor
  · intro ha
    obtain ⟨e, he, rfl⟩ := List.mem_map.mp ha
    exact ⟨e.1, h e he⟩
  · rintro ⟨name, hname⟩
    exact mem_values hname

end Table

namespace Twins

variable [Holder α]

/-- What is kept, if anything, was there before. -/
def Former (since : Nat) (o : Option α) : Prop := ∀ a ∈ o, ∀ node ∈ Holder.nodes a, node < since

/-- Two tables correspond under every name, unless it is set apart and has what was there before. -/
structure Tables (t : Twins) (n : Nat) (apart : String → Prop) (T T' : Table String α) : Prop where
  entries : ∀ name, (Tie.named t (Option α)).Rel n (T.get? name) (T'.get? name) ∨
    apart name ∧ Former t.since (T.get? name) ∧ Former t.since' (T'.get? name)
  plain : T.Plain
  plain' : T'.Plain

namespace Tables

variable {apart : String → Prop} {T T' : Table String α}

theorem mono (h : t.Tables n apart T T') (hnm : n ≤ m) : t.Tables m apart T T' :=
  ⟨fun name => (h.entries name).imp_left fun h => (Tie.named t (Option α)).mono hnm h,
    h.plain, h.plain'⟩

theorem shared (h : t.Tables n apart T T') (name : String) (hname : ¬ apart name) :
    (Tie.named t (Option α)).Rel n (T.get? name) (T'.get? name) :=
  (h.entries name).resolve_right fun h => hname h.1

theorem set (h : t.Tables n apart T T') (name : String) {a : α} (ha : Named.Within t n a) :
    t.Tables n apart (T.set name a) (T'.set name (Named.rename t.across a)) := by
  refine ⟨fun other => ?_, h.plain.set name a, h.plain'.set name _⟩
  by_cases heq : other = name
  · rw [heq, Table.get?_set_self, Table.get?_set_self]
    refine .inl ⟨rfl, fun b hb => ?_⟩
    cases hb
    exact ha
  · rw [Table.get?_set_of_ne _ _ heq, Table.get?_set_of_ne _ _ heq]
    exact h.entries other

theorem erase (h : t.Tables n apart T T') (name : String) :
    t.Tables n apart (T.erase name) (T'.erase name) := by
  refine ⟨fun other => ?_, h.plain.erase name, h.plain'.erase name⟩
  by_cases heq : other = name
  · rw [Table.get?_erase, Table.get?_erase, if_pos heq, if_pos heq]
    exact .inl ⟨rfl, nofun⟩
  · rw [Table.get?_erase, Table.get?_erase, if_neg heq, if_neg heq]
    exact h.entries other

theorem mem_nodes_iff (h : t.Tables n apart T T') {a : NodeId} (ha : t.since ≤ a) :
    (∃ v ∈ T'.values, t.across.name a ∈ Holder.nodes v) ↔ ∃ v ∈ T.values, a ∈ Holder.nodes v := by
  have hname : t.since' ≤ t.across.name a := Nat.le_add_left ..
  constructor
  · rintro ⟨v', hv', hmem⟩
    obtain ⟨name, hget⟩ := h.plain'.mem_values_iff.mp hv'
    rcases h.entries name with ⟨hrel, hwithin⟩ | ⟨-, -, hformer⟩
    · rw [hget] at hrel
      obtain ⟨v, hv, rfl⟩ := Option.map_eq_some_iff.mp hrel.symm
      rw [Holder.nodes_rename] at hmem
      obtain ⟨b, hb, hab⟩ := List.mem_map.mp hmem
      have hsince := (Holder.has (hwithin v hv) b hb).1
      rw [name_inj hsince ha hab] at hb
      exact ⟨v, Table.mem_values hv, hb⟩
    -- what is set apart is older than every name that corresponds to one
    · exact absurd (hformer v' hget _ hmem) (Nat.not_lt.mpr hname)
  · rintro ⟨v, hv, hmem⟩
    obtain ⟨name, hget⟩ := h.plain.mem_values_iff.mp hv
    rcases h.entries name with ⟨hrel, -⟩ | ⟨-, hformer, -⟩
    · rw [hget] at hrel
      refine ⟨Named.rename t.across v, Table.mem_values hrel, ?_⟩
      rw [Holder.nodes_rename]
      exact List.mem_map_of_mem hmem
    · exact absurd (hformer v hget _ hmem) (Nat.not_lt.mpr ha)

theorem lt_of_mem (h : t.Tables n apart T T') (hn : t.since ≤ n) {v : α} (hv : v ∈ T.values)
    {a : NodeId} (ha : a ∈ Holder.nodes v) : a < n := by
  obtain ⟨name, hget⟩ := h.plain.mem_values_iff.mp hv
  rcases h.entries name with ⟨-, hwithin⟩ | ⟨-, hformer, -⟩
  · exact (Holder.has (hwithin v hget) a ha).2
  · exact Nat.lt_of_lt_of_le (hformer v hget a ha) hn

end Tables

end Twins

end LightBridge
