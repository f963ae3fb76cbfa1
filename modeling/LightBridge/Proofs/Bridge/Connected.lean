import LightBridge.Bridge.Pairing
import LightBridge.Proofs.Channel.Request
import LightBridge.Proofs.Play

/-!
# Bridges that have just been connected

Connecting always succeeds and fetches nothing: the channel, the root of the state and the
collections are new. To switch the user or the transport is to connect anew.
-/

namespace LightBridge

variable {w w' u : World}

/-! ## Connecting anew -/

/-- No collection has an entry. -/
structure Connection.Bare (c : Connection) : Prop where
  lights : c.lights.entries = []
  groups : c.groups.entries = []
  schedules : c.schedules.entries = []
  scenes : c.scenes.entries = []
  sensors : c.sensors.entries = []

namespace Bridge

variable {config : Config} {transport : TransportId} {b b' : Bridge} {username : String}

/-- A bridge that is made in a world has a channel and a root of its own, and fetches nothing. -/
structure Connected (config : Config) (transport : TransportId) (w : World) (b : Bridge)
    (w' : World) : Prop where
  connects : connect config transport w = .ok b w'
  configured : b.config = config
  reached : b.transport = transport
  channel : b.connection.channel =
    ⟨config.address, config.port, config.username, config.minDelay, w.fresh, transport⟩
  state : b.connection.state =
    .root (w.fresh + 1) "" b.connection.channel config.refreshInterval
  bare : b.connection.Bare
  now : w'.now = w.now
  script : w'.script transport = w.script transport
  snapshots : w'.snapshots = w.snapshots

theorem exists_connected (config : Config) (transport : TransportId) (w : World) :
    ∃ b w', Connected config transport w b w' :=
  ⟨_, _, rfl, rfl, rfl, rfl, rfl, ⟨rfl, rfl, rfl, rfl, rfl⟩, rfl, rfl, rfl⟩

theorem Connected.sent (h : Connected config transport w b' w') : w'.sent = w.sent := by
  have hconnects := h.connects
  cases hconnects
  rfl

theorem setUsername_of_connected
    (h : Connected (b.config.withUsername username) b.transport w b' w') :
    setUsername username (b, w) = .ok () (b', w') := by
  simp only [setUsername, bind, EStateM.bind, ActOn.current, lift_eq_of_ok h.connects, ActOn.become]

theorem setTransport_of_connected (h : Connected b.config transport w b' w') :
    setTransport transport (b, w) = .ok () (b', w') := by
  simp only [setTransport, bind, EStateM.bind, ActOn.current, lift_eq_of_ok h.connects,
    ActOn.become]

/-! ## Pairing -/

/-- What a bridge asks when it pairs in a world. -/
def asking (b : Bridge) (w : World) : Act Pairing.Ending :=
  let c := b.connection.channel.asUser ""
  Pairing.ask b.config c w.now
    (Pairing.enough b.config ((w.script c.transport).waiting .post (c.uri "")))

theorem pair_eq (b : Bridge) (w : World) :
    pair (b, w) = (liftM (b.asking w) >>= fun ending => match ending with
      | .user username => do
        setUsername username
        pure (.user username)
      | ending => pure ending : ActOn Bridge Pairing.Ending) (b, w) := rfl

theorem pair_of_error {e : Fault} (h : b.asking w w = .error e u) :
    pair (b, w) = .error e (b, u) := by
  rw [pair_eq]
  simp only [bind, EStateM.bind, lift_eq_of_error h]

theorem pair_of_no_user {ending : Pairing.Ending} (h : b.asking w w = .ok ending u)
    (hnone : ∀ username, ending ≠ .user username) : pair (b, w) = .ok ending (b, u) := by
  rw [pair_eq, bind_eq_of_ok (lift_eq_of_ok h)]
  cases ending with
  | user username => exact absurd rfl (hnone username)
  | timeout | unfinished => rfl

theorem exists_pair_of_user (h : b.asking w w = .ok (.user username) u) :
    ∃ b' w', Connected (b.config.withUsername username) b.transport u b' w' ∧
      pair (b, w) = .ok (.user username) (b', w') := by
  obtain ⟨b', w', hconnected⟩ :=
    exists_connected (b.config.withUsername username) b.transport u
  refine ⟨b', w', hconnected, ?_⟩
  rw [pair_eq, bind_eq_of_ok (lift_eq_of_ok h)]
  exact bind_eq_of_ok (setUsername_of_connected hconnected)

/-- Pairing that succeeds is asking for a user, and then switching to it. -/
theorem exists_of_pair (h : pair (b, w) = .ok (.user username) (b', w')) :
    ∃ started attempts u,
      Pairing.ask b.config (b.connection.channel.asUser "") started attempts w =
        .ok (.user username) u ∧
      Connected (b.config.withUsername username) b.transport u b' w' := by
  cases hask : b.asking w w with
  | error e u => nomatch (pair_of_error hask).symm.trans h
  | ok ending u =>
    cases ending with
    | timeout | unfinished => nomatch (pair_of_no_user hask nofun).symm.trans h
    | user name =>
      obtain ⟨b₁, w₁, hconnected, hpair⟩ := exists_pair_of_user hask
      cases hpair.symm.trans h
      exact ⟨_, _, u, hask, hconnected⟩

end Bridge

end LightBridge
