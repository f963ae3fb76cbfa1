import LightBridge.Proofs.Session.Play

/-!
# Spacing of the requests of a bridge

The delay of a configuration is kept by each connection of a bridge, not by the bridge: a new
connection starts with a free slot, also when the one before it has just sent something. Requests of
one connection are spaced over a whole session; the first one of a connection goes out at once.
-/

namespace LightBridge.BridgeSession

variable {config : Config} {opened : List SlotId}

/-- The number of connections that a command opens at most. -/
def Command.connections (command : Command) : Nat := if command.reconnects then 1 else 0

theorem opens_onBridge {α : Type} {x : ActOn Bridge α} {n : Nat}
    (hx : Opens config (Bridge.Over config) opened n x) :
    Opens config (Over config) opened n (onBridge x) :=
  hx.within (fun _ _ hs => hs.bridge) fun _ _ _ _ h hs hb => hs.withBridge h hb

theorem opens_pair : Opens config (Over config) opened 1 pair := by
  refine Opens.bind_of_still (Opens.ofActOn (opens_onBridge Bridge.opens_pair)) fun ending s => ?_
  cases ending <;> rfl

theorem opens_setTransport (lines : List Script.Line) :
    Opens config (Over config) opened 1 (perform (.setTransport lines)) := by
  refine .bind_of_plays PlaysOn.here fun s _ => ?_
  refine .bind_of_plays (PlaysOn.liftStep (Act.plays_latency _)) fun latency _ => ?_
  refine .bind_of_plays (PlaysOn.liftStep (Act.plays_addTransport _ fun _ => trivial))
    fun transport _ => ?_
  exact (opens_onBridge (Bridge.opens_setTransport transport)).ofActOn.bind_of_still fun _ _ => rfl

theorem opens_perform (command : Command) :
    Opens config (Over config) opened command.connections (perform command) := by
  unfold Command.connections
  cases hcommand : command.reconnects with
  | false => exact .of_plays (plays_perform hcommand)
  | true =>
    cases command with
    | setUsername username =>
      exact (opens_onBridge (Bridge.opens_setUsername username)).ofActOn.bind_of_still
        fun _ _ => rfl
    | setTransport lines => exact opens_setTransport lines
    | pair => exact opens_pair
    | _ => nomatch hcommand

/-! ## Runs -/

/-- What a session and its world are after several commands. -/
def stateAfter (s : BridgeSession × World) (commands : List Command) : BridgeSession × World :=
  commands.foldl (fun s c => (step s c).2) s

section Step

variable {s t : BridgeSession × World} {c : Command}

theorem outcome_step_of_ok {a : Answer} (h : perform c s = .ok a t) :
    (step s c).1.outcome = .ok a := by
  simp only [step, Step.observe, h]

theorem outcome_step_of_error {e : SessionError} (h : perform c s = .error e t) :
    (step s c).1.outcome = .error e := by
  simp only [step, Step.observe, h]

theorem state_step_of_ok {a : Answer} (h : perform c s = .ok a t) :
    (step s c).2 = (t.1, t.2.settle t.1.held) := by
  simp only [step, Step.observe, h]

theorem state_step_of_error {e : SessionError} (h : perform c s = .error e t) :
    (step s c).2 = (t.1, t.2.settle t.1.held) := by
  simp only [step, Step.observe, h]

end Step

theorem step_eq (s : BridgeSession × World) (c : Command) :
    (step s c).2 =
      ((after (perform c) s).1, (after (perform c) s).2.settle (held (after (perform c) s).1)) :=
  Step.state_observe held (perform c) s

theorem sent_step (s : BridgeSession × World) (c : Command) :
    (step s c).1.sent = (after (perform c) s).2.sent.drop s.2.sent.length := by
  cases h : perform c s <;> simp only [step, Step.observe, after, h]

/-- What a command does, with its observation and the nodes given up afterwards. -/
theorem moves_step {s : BridgeSession × World} (hs : Tracked config (Over config) opened s)
    (c : Command) :
    ∃ opened', Moves config (Over config) c.connections opened s.2 opened' (step s c).2 := by
  obtain ⟨opened', hsubset, hlength, ⟨events, hplay, hadmits⟩, htracked⟩ := opens_perform c s hs
  -- giving up nodes is one event more, and it sends nothing
  rw [step_eq]
  have hsettle := World.play_append s.2 events [.settle (held (after (perform c) s).1)]
  rw [← hplay] at hsettle
  refine ⟨opened', hsubset, hlength, ⟨_, hsettle.symm, ?_⟩, htracked.belongs, htracked.inUse⟩
  exact World.admits_append_iff.mpr ⟨hadmits, fun _ _ h => (nomatch h), trivial⟩

theorem sent_eq_of_moves {s : BridgeSession × World} (hs : Tracked config (Over config) opened s)
    (c : Command) : (step s c).2.2.sent = s.2.sent ++ (step s c).1.sent := by
  obtain ⟨opened', -, -, ⟨events, hplay, -⟩, -⟩ := opens_perform c s hs
  rw [sent_step, step_eq, hplay, World.sent_play, List.drop_left]
  show (s.2.play events).sent = _
  rw [World.sent_play]

theorem moves_stateAfter {s : BridgeSession × World} (hs : Tracked config (Over config) opened s)
    (commands : List Command) :
    (∃ opened', Moves config (Over config) (commands.countP Command.reconnects) opened s.2 opened'
        (stateAfter s commands)) ∧
      (stateAfter s commands).2.sent = s.2.sent ++ (run s commands).flatMap (·.sent) := by
  induction commands generalizing s opened with
  | nil => exact ⟨⟨opened, .refl hs⟩, (List.append_nil _).symm⟩
  | cons c rest ih =>
    -- the connections in use grow from `opened` over `middle` to `opened'`
    obtain ⟨middle, hfirst⟩ := moves_step hs c
    obtain ⟨⟨opened', hrest⟩, hsent⟩ := ih hfirst.tracked
    refine ⟨⟨opened', (hfirst.trans hrest).mono ?_⟩, ?_⟩
    · rw [List.countP_cons, Nat.add_comm]
      exact Nat.le_refl _
    · show (stateAfter (step s c).2 rest).2.sent = _
      rw [hsent, sent_eq_of_moves hs c, List.append_assoc]
      rfl

theorem moves_start {script : Script} {s : BridgeSession} {w : World}
    (hstart : start config script World.start = .ok s w) :
    w.sent = [] ∧ ∃ opened, Moves config (Over config) 1 [] World.start opened (s, w) := by
  have htarget : config.SameTarget config := ⟨rfl, rfl, rfl⟩
  have hinUse : ∀ slot ∈ ([] : List SlotId),
      slot < (World.start.step (.newTransport script)).fresh := by
    intro slot hslot
    exact absurd hslot List.not_mem_nil
  obtain ⟨b, w', hconnect, hsubset, hlength, ⟨events, hplay, hadmits⟩, hover, hinUse'⟩ :=
    Bridge.moves_connect htarget World.start.fresh hinUse
  have hstart' : start config script World.start = .ok ⟨b, .empty, .empty⟩ w' := by
    have hadd : Act.addTransport script World.start =
        .ok World.start.fresh (World.start.step (.newTransport script)) := rfl
    simp only [start, bind, EStateM.bind, hadd, hconnect, pure, EStateM.pure]
  rw [hstart'] at hstart
  cases hstart
  refine ⟨?_, _, hsubset, hlength, ⟨.newTransport script :: events, hplay, ?_, hadmits⟩, ?_,
    hinUse'⟩
  · obtain ⟨b', hconnect', -, -⟩ :=
      Bridge.connect_spec config World.start.fresh (World.start.step (.newTransport script))
    rw [hconnect'] at hconnect
    cases hconnect
    rfl
  · intro c r h
    cases h
  · exact ⟨hover, .empty, .empty⟩

theorem eq_of_mem_of_length_le_one {α : Type} {l : List α} (hl : l.length ≤ 1) {a b : α}
    (ha : a ∈ l) (hb : b ∈ l) : a = b := by
  match l, hl with
  | [c], _ => rw [List.mem_singleton.mp ha, List.mem_singleton.mp hb]

/-- **Spacing.** In a session with a new bridge, at most one connection is opened beside those that
the commands ask for. Requests of one connection are at least the delay apart over the whole
session, whatever goes out through others in between; the first one of a connection goes out when it
is asked for. So everything that the bridge is sent is spaced exactly when each request that follows
one of another connection is asked for late enough or held back by its own connection, and always
when no command switches the connection. -/
theorem bridge_requests_spaced_per_connection {d : Nat} (hd : config.minDelay = .millis d)
    {script : Script} {s : BridgeSession} {w : World}
    (hstart : start config script World.start = .ok s w) (commands : List Command) :
    let requests := (run (s, w) commands).flatMap (·.sent)
    let spaced := requests.IsChain fun a b => a.sentAt + d ≤ b.sentAt
    ∃ (opened : List SlotId) (events : List Event),
      (stateAfter (s, w) commands).2 = World.start.play events ∧
      opened.length ≤ 1 + commands.countP Command.reconnects ∧
      let sends := World.start.sends events
      requests = sends.map (·.sent) ∧
      (∀ x ∈ sends, x.channel.Of config opened) ∧
      (sends.Pairwise fun a b =>
        a.channel.slot = b.channel.slot → a.sent.sentAt + d ≤ b.sent.sentAt) ∧
      (∀ earlier x later, sends = earlier ++ x :: later →
        (∀ y ∈ earlier, y.channel.slot ≠ x.channel.slot) → x.sent.sentAt = x.asked) ∧
      (spaced ↔ sends.IsChain fun a b =>
        a.channel.slot = b.channel.slot ∨ a.sent.sentAt + d ≤ max b.asked b.free) ∧
      (commands.countP Command.reconnects = 0 → spaced) := by
  intro requests spaced
  obtain ⟨hnothing, opened₀, hfirst⟩ := moves_start hstart
  obtain ⟨⟨opened, hrest⟩, hsent⟩ := moves_stateAfter hfirst.tracked commands
  obtain ⟨-, hlength, ⟨events, hplay, hadmits⟩, -⟩ := hfirst.trans hrest
  rw [List.length_nil, Nat.zero_add] at hlength
  have hdelay : ∀ c : Channel, c.Of config opened → c.minDelay = .millis d :=
    fun c hc => hc.minDelay.trans hd
  -- what the commands record is what the world recorded since it started
  have hrequests : requests = (World.start.sends events).map (·.sent) := by
    have hrecord := World.sent_play World.start events
    rw [← hplay, hsent, hnothing, List.nil_append] at hrecord
    exact hrecord
  have hspaced : spaced ↔ (World.start.sends events).IsChain fun a b =>
      a.sent.sentAt + d ≤ b.sent.sentAt := by
    show requests.IsChain _ ↔ _
    rw [hrequests, List.isChain_map]
  have hiff := hspaced.trans (hadmits.spaced_iff hdelay)
  refine ⟨opened, events, hplay, hlength, hrequests, fun x hx => hadmits.of_mem_sends hx,
    hadmits.pairwise_sends hdelay, fun earlier x later hsends hfirst => ?_, hiff, fun hnone => ?_⟩
  · exact hadmits.first_at_once hdelay (Nat.zero_le _) hsends hfirst
  · -- with one connection alone, any two requests are of the same one
    rw [hnone] at hlength
    have hsame : ∀ x ∈ World.start.sends events, ∀ y ∈ World.start.sends events,
        x.channel.slot = y.channel.slot := fun x hx y hy =>
      eq_of_mem_of_length_le_one hlength (hadmits.of_mem_sends hx).slot
        (hadmits.of_mem_sends hy).slot
    have hall := (hadmits.pairwise_sends hdelay).imp_of_mem fun hx hy h => h (hsame _ hx _ hy)
    exact hspaced.mpr hall.isChain

theorem spaced_per_connection_after_switch :
    let config := { Config.forAddress "192.168.2.116" with minDelay := .millis 100 }
    ∃ s w, start config (Script.silent 7) World.start = .ok s w ∧
      ∃ (opened : List SlotId) (events : List Event),
        (stateAfter (s, w) [.refresh, .setUsername "b", .refresh]).2 = World.start.play events ∧
          opened.length ≤ 2 ∧
          (World.start.sends events).Pairwise fun a b =>
            a.channel.slot = b.channel.slot → a.sent.sentAt + 100 ≤ b.sent.sentAt := by
  intro config
  have hsession : ∃ s w, start config (Script.silent 7) World.start = .ok s w := ⟨_, _, rfl⟩
  obtain ⟨s, w, hstart⟩ := hsession
  obtain ⟨opened, events, hplay, hlength, -, -, hspaced, -⟩ :=
    bridge_requests_spaced_per_connection (d := 100) rfl hstart
      [.refresh, .setUsername "b", .refresh]
  exact ⟨s, w, hstart, opened, events, hplay, hlength, hspaced⟩

/-- A bridge that switches its user between two requests sends both at the same instant. -/
theorem unspaced_after_switch :
    let config :=
      { Config.forAddress "192.168.2.116" with username := "a", minDelay := .millis 100 }
    let script :=
      Script.ofLines 0 [.always .get "/api/a" "\x7b\x7d", .always .get "/api/b" "\x7b\x7d"]
    ∃ s w, start config script World.start = .ok s w ∧
      ((run (s, w) [.refresh, .setUsername "b", .refresh]).flatMap (·.sent)).map (·.sentAt) =
        [0, 0] ∧
      ¬ ((run (s, w) [.refresh, .setUsername "b", .refresh]).flatMap (·.sent)).IsChain fun a b =>
        a.sentAt + 100 ≤ b.sentAt := by
  intro config script
  have hrun : ∃ s w, start config script World.start = .ok s w ∧
      ((run (s, w) [.refresh, .setUsername "b", .refresh]).flatMap (·.sent)).map (·.sentAt) =
        [0, 0] := ⟨_, _, rfl, by decide +kernel⟩
  obtain ⟨s, w, hstart, htimes⟩ := hrun
  refine ⟨s, w, hstart, htimes, fun hchain => ?_⟩
  have hspaced : (((run (s, w) [.refresh, .setUsername "b", .refresh]).flatMap (·.sent)).map
      (·.sentAt)).IsChain fun a b => a + 100 ≤ b := by
    rwa [List.isChain_map]
  rw [htimes] at hspaced
  exact absurd hspaced (by decide)

end LightBridge.BridgeSession
