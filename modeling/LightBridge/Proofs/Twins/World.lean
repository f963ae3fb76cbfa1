import LightBridge.Proofs.Play

/-!
# Two runs side by side

Names of slots, transports and nodes are given out in order, so what one run does with the names
that it got from some point on, another run does with those that it got from another point on. Two
worlds correspond when they agree on everything that such names stand for; what was there before
may differ, except for one transport. Every event that is the same in both but for these names leaves
worlds that still correspond.
-/

namespace LightBridge

/-- Other names for slots, nodes and transports. -/
structure Renaming where
  name : Nat → Nat
  transport : TransportId → TransportId

namespace Renaming

/-- One renaming after another. -/
def andThen (r r' : Renaming) : Renaming where
  name a := r'.name (r.name a)
  transport a := r'.transport (r.transport a)

/-- All names are forgotten. -/
def forget : Renaming where
  name _ := 0
  transport _ := 0

end Renaming

/-- Where two runs are compared, and what they may do from then on. -/
structure Twins where
  /-- The names from here on correspond, in order. -/
  since : Nat
  since' : Nat
  /-- The transports that correspond although they may be older. -/
  transport : TransportId
  transport' : TransportId
  apart : ∀ a, since ≤ a → a ≠ transport → a - since + since' ≠ transport'
  /-- What may be sent. -/
  asked : Request → Prop
  /-- Whether an endless duration may be added to an instant. -/
  endless : Prop

namespace Twins

variable (t : Twins)

/-- The names of the second run for those of the first. -/
def across : Renaming where
  name a := a - t.since + t.since'
  transport a := if a = t.transport then t.transport' else a - t.since + t.since'

/-- A name that corresponds to one of the other run, given out before `n`. -/
def Has (n a : Nat) : Prop := t.since ≤ a ∧ a < n

/-- A transport that corresponds to one of the other run, given out before `n`. -/
def Reaches (n : Nat) (a : TransportId) : Prop := t.since ≤ a ∧ a < n ∨ a = t.transport

variable {t : Twins} {a b n m : Nat}

theorem Has.mono (h : t.Has n a) (hnm : n ≤ m) : t.Has m a := ⟨h.1, Nat.lt_of_lt_of_le h.2 hnm⟩

theorem Reaches.mono (h : t.Reaches n a) (hnm : n ≤ m) : t.Reaches m a := by
  rcases h with h | h
  · exact .inl ⟨h.1, Nat.lt_of_lt_of_le h.2 hnm⟩
  · exact .inr h

theorem Reaches.since (h : t.Reaches n a) : t.since ≤ a ∨ a = t.transport := h.imp_left And.left

theorem name_inj (ha : t.since ≤ a) (hb : t.since ≤ b)
    (h : t.across.name a = t.across.name b) : a = b := by
  simp only [across] at h
  omega

theorem transport_inj (ha : t.since ≤ a ∨ a = t.transport) (hb : t.since ≤ b ∨ b = t.transport)
    (h : t.across.transport a = t.across.transport b) : a = b := by
  simp only [across] at h
  -- one transport may be older than the others; `apart` keeps the newer ones off its name
  by_cases hat : a = t.transport
  · by_cases hbt : b = t.transport
    · rw [hat, hbt]
    · rw [if_pos hat, if_neg hbt] at h
      exact absurd h.symm (t.apart b (hb.resolve_right hbt) hbt)
  · by_cases hbt : b = t.transport
    · rw [if_neg hat, if_pos hbt] at h
      exact absurd h (t.apart a (ha.resolve_right hat) hat)
    · rw [if_neg hat, if_neg hbt] at h
      exact name_inj (ha.resolve_right hat) (hb.resolve_right hbt) h

end Twins

/-- Things in which names occur. -/
class Named (α : Type) where
  rename : Renaming → α → α
  /-- The names in it correspond to names of the other run and were given out before some name;
  with what is in it, nothing is done that may not be done. -/
  Within : Twins → Nat → α → Prop
  mono {t : Twins} {n m : Nat} {a : α} : n ≤ m → Within t n a → Within t m a
  rename_rename (r r' : Renaming) (a : α) : rename r' (rename r a) = rename (r.andThen r') a

namespace Named

variable {α : Type} [Named α]

/-- What is left of something without the names in it. -/
def nameless (a : α) : α := rename .forget a

theorem nameless_rename (r : Renaming) (a : α) : nameless (rename r a) = nameless a :=
  rename_rename r .forget a

instance : Named (List α) where
  rename r l := l.map (rename r)
  Within t n l := ∀ a ∈ l, Within t n a
  mono hnm h a ha := mono hnm (h a ha)
  rename_rename r r' l := by
    rw [List.map_map]
    exact List.map_congr_left fun a _ => rename_rename r r' a

instance : Named (Option α) where
  rename r o := o.map (rename r)
  Within t n o := ∀ a ∈ o, Within t n a
  mono hnm h a ha := mono hnm (h a ha)
  rename_rename r r' o := by
    rw [Option.map_map]
    exact congrArg (Option.map · o) (funext fun a => rename_rename r r' a)

/-- What holds nothing but something in which names occur. -/
@[reducible] def wrapped {β : Type} (inner : β → α) (wrap : α → β)
    (hinner : ∀ a, inner (wrap a) = a) : Named β where
  rename r b := wrap (rename r (inner b))
  Within t n b := Within t n (inner b)
  mono hnm h := mono hnm h
  rename_rename r r' b := by rw [hinner, rename_rename]

instance {β : Type} [Named β] : Named (α × β) where
  rename r p := (rename r p.1, rename r p.2)
  Within t n p := Within t n p.1 ∧ Within t n p.2
  mono hnm h := ⟨mono hnm h.1, mono hnm h.2⟩
  rename_rename r r' p := by rw [rename_rename, rename_rename]

end Named

/-- Nothing is stored yet under a name that is still to be given out, nor held. -/
structure World.Tidy (w : World) : Prop where
  slots : ∀ a, w.fresh ≤ a → w.slots.get? a = none
  transports : ∀ a, w.fresh ≤ a → w.transports.get? a = none
  snapshots : ∀ a, w.fresh ≤ a → w.snapshots.get? a = none
  held : ∀ a ∈ w.held, a < w.fresh

theorem World.Tidy.not_holds {w : World} (h : w.Tidy) {a : NodeId} (ha : w.fresh ≤ a) :
    w.holds a = false := by
  rw [World.holds, Bool.eq_false_iff]
  exact fun hholds => Nat.not_lt.mpr ha (h.held a (List.contains_iff_mem.mp hholds))

namespace Twins

/-- Two worlds agree on everything that corresponding names stand for. -/
structure Worlds (t : Twins) (w w' : World) : Prop where
  now : w'.now = w.now
  since : t.since ≤ w.fresh
  fresh : w'.fresh = t.across.name w.fresh
  old : t.transport < w.fresh
  slots : ∀ a, t.since ≤ a → w'.slots.get? (t.across.name a) = w.slots.get? a
  scripts : ∀ a, t.since ≤ a ∨ a = t.transport →
    w'.script (t.across.transport a) = w.script a
  snapshots : ∀ a, t.since ≤ a → w'.snapshots.get? (t.across.name a) = w.snapshots.get? a
  holds : ∀ a, t.since ≤ a → w'.holds (t.across.name a) = w.holds a
  tidy : w.Tidy

end Twins

theorem Table.get?_set_renamed {α : Type} {f : Nat → Nat} {P : Nat → Prop}
    (hf : ∀ a b, P a → P b → f a = f b → a = b) {T T' : Table Nat α}
    (h : ∀ a, P a → T'.get? (f a) = T.get? a) {a : Nat} (ha : P a) (v : α) :
    ∀ b, P b → (T'.set (f a) v).get? (f b) = (T.set a v).get? b := by
  intro b hb
  by_cases heq : b = a
  · rw [heq, Table.get?_set_self, Table.get?_set_self]
  · rw [Table.get?_set_of_ne _ _ heq, Table.get?_set_of_ne _ _ fun h => heq (hf b a hb ha h), h b hb]

theorem Table.get?_set_none {α : Type} {T : Table Nat α} {n a : Nat} (v : α) (ha : a < n)
    (h : ∀ b, n ≤ b → T.get? b = none) : ∀ b, n ≤ b → (T.set a v).get? b = none := by
  intro b hb
  rw [Table.get?_set_of_ne _ _ (Nat.ne_of_gt (Nat.lt_of_lt_of_le ha hb)), h b hb]

namespace World

variable {w : World}

theorem script_set (transport : TransportId) (script : Script) (a : TransportId) :
    ({ w with transports := w.transports.set transport script } : World).script a =
      if a = transport then script else w.script a := by
  rw [World.script]
  by_cases h : a = transport
  · rw [if_pos h, h, Table.get?_set_self, Option.getD_some]
  · rw [if_neg h, Table.get?_set_of_ne _ _ h, World.script]

end World

namespace Twins.Worlds

variable {t : Twins} {w w' : World} {a : Nat}

/-! ## Corresponding events -/

theorem pass (h : t.Worlds w w') {now now' : Instant} (hnow : now' = now) :
    t.Worlds { w with now } { w' with now := now' } :=
  ⟨hnow, h.since, h.fresh, h.old, h.slots, h.scripts, h.snapshots, h.holds,
    h.tidy.slots, h.tidy.transports, h.tidy.snapshots, h.tidy.held⟩

theorem send (h : t.Worlds w w') {sent sent' : List Sent} :
    t.Worlds { w with sent } { w' with sent := sent' } :=
  ⟨h.now, h.since, h.fresh, h.old, h.slots, h.scripts, h.snapshots, h.holds,
    h.tidy.slots, h.tidy.transports, h.tidy.snapshots, h.tidy.held⟩

theorem setSlot (h : t.Worlds w w') (ha : t.Has w.fresh a) {free free' : Instant}
    (hfree : free' = free) :
    t.Worlds { w with slots := w.slots.set a free }
      { w' with slots := w'.slots.set (t.across.name a) free' } where
  now := h.now
  since := h.since
  fresh := h.fresh
  old := h.old
  slots := by
    rw [hfree]
    exact Table.get?_set_renamed (fun _ _ => name_inj) h.slots ha.1 free
  scripts := h.scripts
  snapshots := h.snapshots
  holds := h.holds
  tidy :=
    ⟨Table.get?_set_none free ha.2 h.tidy.slots, h.tidy.transports, h.tidy.snapshots, h.tidy.held⟩

theorem setScript (h : t.Worlds w w') (ha : t.Reaches w.fresh a) (script : Script) :
    t.Worlds { w with transports := w.transports.set a script }
      { w' with transports := w'.transports.set (t.across.transport a) script } where
  now := h.now
  since := h.since
  fresh := h.fresh
  old := h.old
  slots := h.slots
  scripts b hb := by
    rw [World.script_set, World.script_set]
    by_cases heq : b = a
    · rw [if_pos heq, if_pos (by rw [heq])]
    · rw [if_neg heq, if_neg fun h => heq (transport_inj hb ha.since h), h.scripts b hb]
  snapshots := h.snapshots
  holds := h.holds
  tidy := by
    -- also the older transport was given out before
    have hlt : a < w.fresh := by
      rcases ha with ha | ha
      · exact ha.2
      · rw [ha]
        exact h.old
    exact ⟨h.tidy.slots, Table.get?_set_none script hlt h.tidy.transports, h.tidy.snapshots,
      h.tidy.held⟩

theorem setSnapshot (h : t.Worlds w w') (ha : t.Has w.fresh a) {s s' : Snapshot} (hs : s' = s) :
    t.Worlds { w with snapshots := w.snapshots.set a s }
      { w' with snapshots := w'.snapshots.set (t.across.name a) s' } where
  now := h.now
  since := h.since
  fresh := h.fresh
  old := h.old
  slots := h.slots
  scripts := h.scripts
  snapshots := by
    rw [hs]
    exact Table.get?_set_renamed (fun _ _ => name_inj) h.snapshots ha.1 s
  holds := h.holds
  tidy :=
    ⟨h.tidy.slots, h.tidy.transports, Table.get?_set_none s ha.2 h.tidy.snapshots, h.tidy.held⟩

theorem nextAllowed (h : t.Worlds w w') (ha : t.since ≤ a) :
    w'.nextAllowed (t.across.name a) = w.nextAllowed a := by
  rw [World.nextAllowed, World.nextAllowed, h.slots a ha]

theorem grow (h : t.Worlds w w') :
    t.Worlds { w with fresh := w.fresh + 1 } { w' with fresh := w'.fresh + 1 } where
  now := h.now
  since := Nat.le_succ_of_le h.since
  -- both runs give names out one by one, so they stay as far apart as they are
  fresh := by
    have hfresh := h.fresh
    have hsince := h.since
    simp only [across] at hfresh ⊢
    omega
  old := Nat.lt_succ_of_lt h.old
  slots := h.slots
  scripts := h.scripts
  snapshots := h.snapshots
  holds := h.holds
  tidy :=
    ⟨fun a ha => h.tidy.slots a (Nat.le_of_succ_le ha),
      fun a ha => h.tidy.transports a (Nat.le_of_succ_le ha),
      fun a ha => h.tidy.snapshots a (Nat.le_of_succ_le ha),
      fun a ha => Nat.lt_succ_of_lt (h.tidy.held a ha)⟩

theorem has_fresh (h : t.Worlds w w') : t.Has (w.fresh + 1) w.fresh :=
  ⟨h.since, Nat.lt_succ_self _⟩

theorem newSlot (h : t.Worlds w w') : t.Worlds (w.step .newSlot) (w'.step .newSlot) := by
  have hset := h.grow.setSlot h.has_fresh h.now
  rw [← h.fresh] at hset
  exact hset

theorem transport_fresh (h : t.Worlds w w') : w'.fresh = t.across.transport w.fresh := by
  have hne : w.fresh ≠ t.transport := Nat.ne_of_gt h.old
  rw [h.fresh, across]
  exact (if_neg hne).symm

theorem newTransport (h : t.Worlds w w') (script : Script) :
    t.Worlds (w.step (.newTransport script)) (w'.step (.newTransport script)) := by
  have hset := h.grow.setScript (.inl h.has_fresh) script
  rw [← h.transport_fresh] at hset
  exact hset

theorem newNode (h : t.Worlds w w') : t.Worlds (w.step .newNode) (w'.step .newNode) :=
  { h.grow with
    tidy := ⟨h.grow.tidy.slots, h.grow.tidy.transports, h.grow.tidy.snapshots, by
      intro a ha
      rcases List.mem_cons.mp ha with rfl | ha
      · exact Nat.lt_succ_self _
      · exact h.grow.tidy.held a ha⟩
    holds := by
      intro a ha
      show (w'.fresh :: w'.held).contains (t.across.name a) = (w.fresh :: w.held).contains a
      have hold : w'.held.contains (t.across.name a) = w.held.contains a := h.holds a ha
      rw [List.contains_cons, List.contains_cons, hold]
      -- a name of one run is the new one exactly when the other's is
      congr 1
      rw [Bool.eq_iff_iff, beq_iff_eq, beq_iff_eq, h.fresh]
      exact ⟨fun heq => name_inj ha h.since heq, fun heq => by rw [heq]⟩ }

theorem settle (h : t.Worlds w w') {held held' : List NodeId} (hgiven : ∀ a ∈ held, a < w.fresh)
    (hheld : ∀ a, t.since ≤ a → (t.across.name a ∈ held' ↔ a ∈ held)) :
    t.Worlds (w.settle held) (w'.settle held') :=
  { h with
    tidy := ⟨h.tidy.slots, h.tidy.transports, h.tidy.snapshots, hgiven⟩
    holds := by
      intro a ha
      show held'.contains (t.across.name a) = held.contains a
      rw [Bool.eq_iff_iff, List.contains_iff_mem, List.contains_iff_mem, hheld a ha] }

end Twins.Worlds

end LightBridge
