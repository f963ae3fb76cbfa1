import LightBridge.Proofs.Bridge.Play
import LightBridge.Proofs.Channel.Connections

/-!
# What switching the user or the transport does to a world

A bridge that switches its user or its transport opens another connection, to the same address and
with the same delay. Handles, caches and changes that were had before go on using the old one, so
the connections that are in use only grow in number. `Opens` counts them along an operation.
-/

namespace LightBridge

/-- A handle of one of the connections opened so far, for the target of `config`. -/
structure Channel.Of (config : Config) (opened : List SlotId) (c : Channel) : Prop where
  slot : c.slot ∈ opened
  address : c.address = config.address
  port : c.port = config.port
  minDelay : c.minDelay = config.minDelay

theorem Channel.Of.mono {config : Config} {opened opened' : List SlotId} (h : opened ⊆ opened')
    (c : Channel) (hc : c.Of config opened) : c.Of config opened' :=
  ⟨h hc.slot, hc.address, hc.port, hc.minDelay⟩

section Opens

variable {ε σ α β : Type} {config : Config} {I : (Channel → Prop) → σ → Prop} {Q : α → Prop}
variable {opened opened' opened'' : List SlotId} {s : σ × World} {w : World} {n m : Nat}

/-- Whatever a state has belongs to the connections in `opened`, and those have been opened. -/
structure Tracked (config : Config) (I : (Channel → Prop) → σ → Prop) (opened : List SlotId)
    (s : σ × World) : Prop where
  belongs : I (Channel.Of config opened) s.1
  inUse : ∀ slot ∈ opened, slot < s.2.fresh

/-- From a world to a later state: at most `n` connections are opened, and requests go out through
those in `opened'` only. -/
structure Moves (config : Config) (I : (Channel → Prop) → σ → Prop) (n : Nat)
    (opened : List SlotId) (w : World) (opened' : List SlotId) (s' : σ × World) : Prop where
  subset : opened ⊆ opened'
  length : opened'.length ≤ opened.length + n
  played : ∃ events, s'.2 = w.play events ∧ w.Admits (Channel.Of config opened') events
  tracked : Tracked config I opened' s'

theorem Moves.refl (hs : Tracked config I opened s) : Moves config I 0 opened s.2 opened s :=
  ⟨List.Subset.refl _, Nat.le_refl _, ⟨[], rfl, trivial⟩, hs⟩

theorem Moves.trans {τ : Type} {J : (Channel → Prop) → τ → Prop} {t : τ × World}
    (first : Moves config J n opened w opened' t)
    (second : Moves config I m opened' t.2 opened'' s) :
    Moves config I (n + m) opened w opened'' s := by
  obtain ⟨hsubset, hlength, ⟨events, hplay, hadmits⟩, -⟩ := first
  obtain ⟨hsubset', hlength', ⟨events', hplay', hadmits'⟩, htracked⟩ := second
  refine ⟨List.Subset.trans hsubset hsubset', by omega, ⟨events ++ events', ?_, ?_⟩, htracked⟩
  · rw [hplay', hplay, World.play_append]
  · -- the first part used fewer connections, so it is admitted with the later ones as well
    refine World.admits_append_iff.mpr ⟨hadmits.mono (Channel.Of.mono hsubset'), ?_⟩
    rwa [← hplay]

theorem Moves.mono (h : Moves config I n opened w opened' s) (hn : n ≤ m) :
    Moves config I m opened w opened' s :=
  ⟨h.subset, Nat.le_trans h.length (Nat.add_le_add_left hn _), h.played, h.tracked⟩

theorem Moves.of_plays {x : EStateM ε (σ × World) α}
    (hx : PlaysOn (Scope.closed (Channel.Of config opened)).Admits (I (Channel.Of config opened)) Q x)
    (hs : Tracked config I opened s) : Moves config I 0 opened s.2 opened (after x s) := by
  obtain ⟨events, hevents, hplay⟩ := hx.exists_events Scope.over_of_makes hs.belongs
  obtain ⟨-, -, -, hover, -⟩ := hx s hs.belongs
  have hadmits := World.admits_of_over hevents fun c hc => hs.inUse c.slot hc.slot
  refine ⟨List.Subset.refl _, Nat.le_refl _, ⟨events, hplay, hadmits⟩, hover, fun slot hslot => ?_⟩
  rw [hplay]
  exact Nat.lt_of_lt_of_le (hs.inUse slot hslot) (s.2.fresh_le_play events)

/-- With the connections in `opened` so far, an operation opens at most `n` more, all for the target
of `config`, and sends through these and those. -/
def Opens (config : Config) (I : (Channel → Prop) → σ → Prop) (opened : List SlotId) (n : Nat)
    (x : EStateM ε (σ × World) α) : Prop :=
  ∀ s, Tracked config I opened s → ∃ opened', Moves config I n opened s.2 opened' (after x s)

namespace Opens

theorem of_plays {x : EStateM ε (σ × World) α}
    (hx : PlaysOn (Scope.closed (Channel.Of config opened)).Admits (I (Channel.Of config opened)) Q x) :
    Opens config I opened 0 x :=
  fun _ hs => ⟨opened, .of_plays hx hs⟩

theorem mono {x : EStateM ε (σ × World) α} (hx : Opens config I opened n x) (hn : n ≤ m) :
    Opens config I opened m x := fun s hs =>
  let ⟨opened', hmoves⟩ := hx s hs
  ⟨opened', hmoves.mono hn⟩

theorem bind_of_plays {x : EStateM ε (σ × World) α} {f : α → EStateM ε (σ × World) β}
    (hx : PlaysOn (Scope.closed (Channel.Of config opened)).Admits (I (Channel.Of config opened)) Q x)
    (hf : ∀ a, Q a → Opens config I opened n (f a)) : Opens config I opened n (x >>= f) := by
  intro s hs
  have hfirst := Moves.of_plays hx hs
  cases h : x s with
  | error e s' =>
    -- the rest is not reached, so nothing is opened
    rw [after_of_error h] at hfirst
    rw [after_bind_of_error h]
    exact ⟨opened, hfirst.mono (Nat.zero_le n)⟩
  | ok a s' =>
    rw [after_of_ok h] at hfirst
    rw [after_bind_of_ok h]
    obtain ⟨-, -, -, -, hok⟩ := hx s hs.belongs
    obtain ⟨opened', hsecond⟩ := hf a (hok a s' h) s' hfirst.tracked
    have hmoves := hfirst.trans hsecond
    rw [Nat.zero_add] at hmoves
    exact ⟨opened', hmoves⟩

theorem bind_of_still {x : EStateM ε (σ × World) α} {f : α → EStateM ε (σ × World) β}
    (hx : Opens config I opened n x) (hf : ∀ a s, after (f a) s = s) :
    Opens config I opened n (x >>= f) := by
  intro s hs
  rw [after_bind_of_still hf]
  exact hx s hs

theorem ofActOn {wrap : Fault → SessionError} {x : ActOn σ α} (hx : Opens config I opened n x) :
    Opens config I opened n (Step.ofActOn wrap x) := by
  intro s hs
  rw [after_ofActOn]
  exact hx s hs

theorem within {τ : Type} {J : (Channel → Prop) → τ → Prop} {part : σ → τ} {replace : σ → τ → σ}
    {x : ActOn τ α} (hx : Opens config J opened n x) (hpart : ∀ C s, I C s → J C (part s))
    (hreplace : ∀ C D s t, (∀ c, C c → D c) → I C s → J D t → I D (replace s t)) :
    Opens config I opened n (ActOn.within part replace x) := by
  rintro ⟨s, w⟩ hs
  obtain ⟨opened', hsubset, hlength, hplayed, htracked⟩ :=
    hx (part s, w) ⟨hpart _ _ hs.belongs, hs.inUse⟩
  rw [after_within]
  refine ⟨opened', hsubset, hlength, hplayed, ?_, htracked.inUse⟩
  exact hreplace _ _ _ _ (Channel.Of.mono hsubset) hs.belongs htracked.belongs

end Opens

end Opens

/-! ## Bridges -/

namespace Bridge

variable {config : Config} {opened : List SlotId}

/-- Connecting opens one connection, for its configuration, and fetches nothing. -/
theorem connect_spec (config : Config) (transport : TransportId) (w : World) :
    ∃ b, connect config transport w =
        .ok b ((w.step .newSlot).play (List.replicate 6 .newNode)) ∧
      b.config = config ∧
      b.connection.Over (· =
        ⟨config.address, config.port, config.username, config.minDelay, w.fresh, transport⟩) := by
  refine ⟨_, rfl, rfl, rfl, rfl, ?_, ?_, ?_, ?_, ?_⟩ <;>
    exact ⟨rfl, rfl, fun _ h => nomatch h⟩

theorem moves_connect {config' : Config} (hconfig : config'.SameTarget config)
    (transport : TransportId) {w : World} (hinUse : ∀ slot ∈ opened, slot < w.fresh) :
    ∃ b' w', connect config' transport w = .ok b' w' ∧
      Moves config (Over config) 1 opened w (w.fresh :: opened) (b', w') := by
  obtain ⟨b', hconnect, rfl, hover⟩ := connect_spec config' transport w
  -- the new slot is the name that the world gives out next
  have hslots : ∀ slot ∈ w.fresh :: opened, slot < (w.step .newSlot).fresh := by
    intro slot hslot
    rcases List.mem_cons.mp hslot with rfl | h
    · exact Nat.lt_succ_self _
    · exact Nat.lt_succ_of_lt (hinUse _ h)
  refine ⟨b', _, hconnect, List.subset_cons_self .., Nat.le_refl _, ⟨_ :: _, rfl, ?_, ?_⟩, ?_, ?_⟩
  · exact fun c r h => nomatch h
  · refine World.admits_of_over (fun e he => ?_) fun c hc => hslots _ hc.slot
    rw [List.eq_of_mem_replicate he]
    trivial
  · refine ⟨hconfig, hover.mono ?_⟩
    rintro c rfl
    exact ⟨List.mem_cons_self, hconfig.address, hconfig.port, hconfig.minDelay⟩
  · intro slot hslot
    exact Nat.lt_of_lt_of_le (hslots slot hslot) (World.fresh_le_play _ _)

/-- Switching to whatever leads to the same target opens one connection. -/
theorem opens_switch (config' : Bridge → Config) (transport : Bridge → TransportId)
    (hconfig : ∀ b : Bridge, b.config.SameTarget config → (config' b).SameTarget config) :
    Opens config (Over config) opened 1 (do
      let b ← ActOn.current
      ActOn.become (← connect (config' b) (transport b)) : ActOn Bridge Unit) := by
  -- everything goes on with the new bridge, which has sent nothing yet
  rintro ⟨b, w⟩ hs
  obtain ⟨b', w', hconnect, hmoves⟩ :=
    moves_connect (hconfig b hs.belongs.target) (transport b) (w := w) hs.inUse
  rw [after_current_bind, after_bind_of_ok (lift_eq_of_ok hconnect)]
  exact ⟨_, hmoves⟩

theorem opens_setUsername (username : String) :
    Opens config (Over config) opened 1 (setUsername username) :=
  opens_switch _ _ fun _ hb => hb.withUsername username

theorem opens_setTransport (transport : TransportId) :
    Opens config (Over config) opened 1 (setTransport transport) :=
  opens_switch _ _ fun _ hb => hb

/-! ## Pairing -/

/-- Pairing opens a connection when it succeeds. Until then it uses the old one. -/
theorem opens_pair : Opens config (Over config) opened 1 pair := by
  refine .bind_of_plays PlaysOn.current fun b hb => ?_
  refine .bind_of_plays (PlaysOn.lift Act.plays_now) fun started _ => ?_
  refine .bind_of_plays (PlaysOn.lift (Act.plays_waiting _ _ _)) fun prepared _ => ?_
  -- asking for a user name is done without one, but through the slot of the old connection
  have hchannel : (b.connection.channel.asUser "").Of config opened :=
    let hc := hb.connection.channel
    ⟨hc.slot, hc.address, hc.port, hc.minDelay⟩
  refine .bind_of_plays (PlaysOn.lift (Pairing.plays_ask Scope.admitsIdle b.config
    (Scope.channelUsed hchannel) started _))
    fun ending _ => ?_
  cases ending with
  | timeout | unfinished =>
    exact (Opens.of_plays (.pure (Q := fun _ => True) _ trivial)).mono (Nat.zero_le 1)
  | user username => exact (opens_setUsername username).bind_of_still fun _ _ => rfl

end Bridge

end LightBridge
