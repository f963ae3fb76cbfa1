import LightBridge.Channel

/-!
# What can happen to a world

Everything that an operation does to a world is a sequence of a few kinds of events: time passes, an
attempt at a request claims its slot and goes out, a reply is stored. An event changes a world by
the same definitions that the operations use, so a law that every event keeps is a law of every
operation, in whatever order the operations of several handles follow one another.
-/

namespace LightBridge

/-- The state that an operation leaves behind, whether it succeeds or fails. -/
def after {ε σ α : Type} (x : EStateM ε σ α) (s : σ) : σ :=
  match x s with
  | .ok _ s => s
  | .error _ s => s

/-- What an operation answers. -/
def outcome {ε σ α : Type} (x : EStateM ε σ α) (s : σ) : Except ε α :=
  match x s with
  | .ok a _ => .ok a
  | .error e _ => .error e

/-- Something that happens to a world. Names are given out by the world itself: a new transport,
slot or node takes the next one. -/
inductive Event where
  | pass (elapsed : Nat)
  | rescript (transport : TransportId) (script : Script)
  | newTransport (script : Script)
  | newSlot
  | newNode
  /-- A handle tries to send a request: it claims its slot, and the transport answers. -/
  | attempt (c : Channel) (r : Request)
  /-- A root holds a reply that has just arrived. -/
  | store (node : NodeId) (reply : Json)
  /-- A root holds another value, as old as the one before. -/
  | patch (node : NodeId) (value : Json)
  | settle (held : List NodeId)

/-- Only handles in `C` send, and no connection is opened. -/
def Event.Over (C : Channel → Prop) : Event → Prop
  | .attempt c _ => C c
  | .newSlot => False
  | _ => True

/-- An event that puts nothing into a root. -/
def Event.Spares (root : NodeId) : Event → Prop
  | .store node _ | .patch node _ => node ≠ root
  | _ => True

instance (root : NodeId) : (e : Event) → Decidable (e.Spares root)
  | .store node _ | .patch node _ => inferInstanceAs (Decidable (node ≠ root))
  | .pass _ | .rescript .. | .newTransport _ | .newSlot | .newNode | .attempt .. | .settle _ =>
    isTrue trivial

namespace World

/-- The world after an event. -/
def step (w : World) : Event → World
  | .pass elapsed => { w with now := w.now + elapsed }
  | .rescript transport script => { w with transports := w.transports.set transport script }
  | .newTransport script =>
    { w with fresh := w.fresh + 1, transports := w.transports.set w.fresh script }
  | .newSlot => { w with fresh := w.fresh + 1, slots := w.slots.set w.fresh w.now }
  | .newNode => { w with fresh := w.fresh + 1, held := w.fresh :: w.held }
  | .attempt c r => after (c.attempt r) w
  | .store node reply => { w with snapshots := w.snapshots.set node ⟨reply, w.now⟩ }
  | .patch node value =>
    match w.snapshots.get? node with
    | some s => { w with snapshots := w.snapshots.set node { s with value } }
    | none => w
  | .settle held => w.settle held

/-- The world after several events, in order. -/
def play (w : World) (events : List Event) : World := events.foldl step w

@[simp] theorem play_nil (w : World) : w.play [] = w := rfl

@[simp] theorem play_cons (w : World) (e : Event) (events : List Event) :
    w.play (e :: events) = (w.step e).play events := rfl

theorem play_append (w : World) (first second : List Event) :
    w.play (first ++ second) = (w.play first).play second :=
  List.foldl_append

end World

/-! ## Connections and attempts -/

namespace Channel

theorem connect_eq (address : String) (port : UInt16) (username : String) (minDelay : Duration)
    (transport : TransportId) (w : World) :
    connect address port username minDelay transport w =
      .ok ⟨address, port, username, minDelay, w.fresh, transport⟩ (w.step .newSlot) := rfl

/-- The instant at which an attempt goes out: now, or when the slot is free. -/
def sendTime (c : Channel) (w : World) : Instant := max w.now (w.nextAllowed c.slot)

theorem now_le_sendTime (c : Channel) (w : World) : w.now ≤ c.sendTime w := Nat.le_max_left ..

theorem nextAllowed_le_sendTime (c : Channel) (w : World) :
    w.nextAllowed c.slot ≤ c.sendTime w := Nat.le_max_right ..

/-- With a finite delay an attempt waits for the slot, keeps it busy for the delay, and records the
request at the instant at which it went out. -/
theorem after_attempt {c : Channel} {d : Nat} (hd : c.minDelay = .millis d) (r : Request)
    (w : World) :
    after (c.attempt r) w =
      { w with
        now := c.sendTime w + ((w.script c.transport).answer r.method r.uri).1.delay
        sent := w.sent ++ [⟨c.sendTime w, r⟩]
        slots := w.slots.set c.slot (c.sendTime w + d)
        transports :=
          w.transports.set c.transport ((w.script c.transport).answer r.method r.uri).2 } := by
  unfold after attempt claimSlot
  simp only [bind, EStateM.bind, hd, Duration.after?_millis]
  rfl

/-- An attempt is over when its request has gone out at the earliest. -/
theorem sendTime_le_now_attempt {c : Channel} {d : Nat} (hd : c.minDelay = .millis d) (r : Request)
    (w : World) : c.sendTime w ≤ (w.step (.attempt c r)).now := by
  rw [World.step, after_attempt hd]
  exact Nat.le_add_right ..

/-- With an endless delay an attempt waits for the slot and then fails; nothing is sent. -/
theorem after_attempt_never {c : Channel} (hd : c.minDelay = .never) (r : Request) (w : World) :
    after (c.attempt r) w = { w with now := c.sendTime w } := by
  unfold after attempt claimSlot
  simp only [bind, EStateM.bind, hd, Duration.after?_never]
  rfl

end Channel

/-! ## What every event keeps -/

namespace World

theorem nextAllowed_of_slots_set (w w' : World) (slot : SlotId) (t : Instant)
    (h : w'.slots = w.slots.set slot t) : w'.nextAllowed slot = t := by
  unfold nextAllowed
  rw [h, Table.get?_set_self, Option.getD_some]

theorem nextAllowed_of_slots_set_of_ne (w w' : World) {slot other : SlotId} (t : Instant)
    (h : w'.slots = w.slots.set slot t) (hne : other ≠ slot) :
    w'.nextAllowed other = w.nextAllowed other := by
  unfold nextAllowed
  rw [h, Table.get?_set_of_ne _ _ hne]

/-- Names are never given back. -/
theorem fresh_le_step (w : World) (e : Event) : w.fresh ≤ (w.step e).fresh := by
  cases e with
  | attempt c r =>
    -- an attempt gives out no name, whether it goes out or waits for ever
    cases hd : c.minDelay with
    | millis d => simp only [step, Channel.after_attempt hd, Nat.le_refl]
    | never => simp only [step, Channel.after_attempt_never hd, Nat.le_refl]
  | patch node value => simp only [step]; split <;> exact Nat.le_refl _
  | newTransport | newSlot | newNode => exact Nat.le_succ _
  | pass | rescript | store | settle => exact Nat.le_refl _

theorem fresh_le_play (w : World) (events : List Event) : w.fresh ≤ (w.play events).fresh := by
  induction events generalizing w with
  | nil => exact Nat.le_refl _
  | cons e rest ih => exact Nat.le_trans (fresh_le_step w e) (ih (w.step e))

/-- Time does not go back. -/
theorem now_le_step (w : World) (e : Event) : w.now ≤ (w.step e).now := by
  cases e with
  | pass elapsed => exact Nat.le_add_right ..
  | attempt c r =>
    -- the clock stands at the send time at least, and the latency comes on top
    have hs := c.now_le_sendTime w
    cases hd : c.minDelay with
    | millis d => exact Nat.le_trans hs (Channel.sendTime_le_now_attempt hd r w)
    | never => simpa only [step, Channel.after_attempt_never hd] using hs
  | patch node value => simp only [step]; split <;> exact Nat.le_refl _
  | rescript | newTransport | newSlot | newNode | store | settle => exact Nat.le_refl _

theorem now_le_play (w : World) (events : List Event) : w.now ≤ (w.play events).now := by
  induction events generalizing w with
  | nil => exact Nat.le_refl _
  | cons e rest ih => exact Nat.le_trans (now_le_step w e) (ih (w.step e))

/-- A new node is held, and so is what was held before. -/
theorem holds_play_newNode {w : World} {node : NodeId} (h : w.holds node = true) (n : Nat) :
    (w.play (List.replicate n .newNode)).holds node = true := by
  induction n generalizing w with
  | zero => exact h
  | succ n ih =>
    refine ih (List.contains_iff_mem.mpr ?_)
    exact List.mem_cons_of_mem _ (List.contains_iff_mem.mp h)

theorem snapshots_play_newNode (w : World) (n : Nat) :
    (w.play (List.replicate n .newNode)).snapshots = w.snapshots := by
  induction n generalizing w with
  | zero => rfl
  | succ n ih => exact ih _

end World

end LightBridge
