import LightBridge.Proofs.Bridge.Connected
import LightBridge.Proofs.Cache.Detached
import LightBridge.Proofs.Twins.Newcomers

/-!
# What is left after a switch

When a bridge switches its transport or its user, everything that it reads through is made anew, out
of names that were not given out before. So nothing that it was told before can be seen through it
any more, and the views of the old state have lost their root.
-/

namespace LightBridge

deriving instance DecidableEq for Answer, Route, Script

namespace BridgeSession

variable {α : Type} {w w' : World} {s : BridgeSession × World} {c : Command} {a : Answer}

theorem exists_of_outcome_ok (h : (step s c).1.outcome = .ok a) :
    ∃ u w, perform c s = .ok a (u, w) ∧ (step s c).2 = (u, w.settle u.held) := by
  unfold step Step.observe at h ⊢
  cases hperform : perform c s with
  | ok b t =>
    rw [hperform] at h
    cases h
    exact ⟨t.1, t.2, rfl, rfl⟩
  | error e t =>
    rw [hperform] at h
    nomatch h

theorem exists_of_onBridge_ok {wrap : Fault → SessionError} {x : ActOn Bridge α} {v : α}
    {s : BridgeSession} {r : BridgeSession × World}
    (h : Step.ofActOn wrap (onBridge x) (s, w) = .ok v r) :
    ∃ b w', x (s.bridge, w) = .ok v (b, w') ∧ r = ({ s with bridge := b }, w') :=
  exists_of_within_ok (ok_of_ofActOn_ok h)

theorem ofActOn_onBridge (wrap : Fault → SessionError) {x : ActOn Bridge α} {v : α}
    {s : BridgeSession} {b : Bridge} (h : x (s.bridge, w) = .ok v (b, w')) :
    Step.ofActOn wrap (onBridge x) (s, w) = .ok v ({ s with bridge := b }, w') := by
  simp only [Step.ofActOn, onBridge, ActOn.within, h]

/-- The user that a bridge has after a command, told from how the command ended. -/
def Command.userAfter (c : Command) (outcome : Except SessionError Answer) (user : String) : String :=
  match c, outcome with
  | .setUsername username, _ => username
  | .pair, .ok (.text username) => username
  | _, _ => user

/-- A command of a session has switched the transport or the user. Pairing does so when it succeeds,
and the other two always do. -/
structure Switches (old : BridgeSession × World) (c : Command) (new : BridgeSession × World) :
    Prop where
  reachable : Reachable old
  reconnects : c.reconnects = true
  paired : c = .pair → ∃ a, (step old c).1.outcome = .ok a
  state : (step old c).2 = new

/-- A bridge was connected anew in a world that knows every name of an old session. -/
structure Anew (old : BridgeSession × World) (config : Config) (transport : TransportId)
    (w : World) (b : Bridge) (w' : World) : Prop where
  grown : old.2.fresh ≤ w.fresh
  tidy : w.Tidy
  known : transport < w.fresh
  connected : Bridge.Connected config transport w b w'

/-- A session with another bridge, and what it holds then. -/
def withBridge (old : BridgeSession) (b : Bridge) (w : World) : BridgeSession × World :=
  ({ old with bridge := b }, w.settle (held { old with bridge := b }))

variable {old new : BridgeSession × World}

theorem Reachable.transport_lt (h : Reachable old) : old.1.bridge.transport < old.2.fresh := by
  obtain ⟨-, htransport, -⟩ := h.itself.sessions.bridge.2
  rcases htransport with h' | h'
  · exact h'.2
  · rw [h']
    exact h.itself.worlds.old

/-- Asking for a user gives out no name that was given out before. -/
theorem Reachable.moved_ask (h : Reachable s) {started : Instant} {attempts : Nat}
    {ending : Pairing.Ending} {w : World}
    (hask : Pairing.ask s.1.bridge.config (s.1.bridge.connection.channel.asUser "") started attempts
      s.2 = .ok ending w) :
    (Twins.itself 0 0 (fun _ => True) True).Moved id .any s.2 s.2 w w := by
  obtain ⟨heq, hbridge⟩ := h.itself.sessions.bridge
  have hchannel := hbridge.connection.channel.asUser (fun _ => trivial) ""
  have halike := Pairing.alike_ask hbridge.config hchannel started attempts
  -- beside itself the channel has the names that it has
  have hsame : (s.1.bridge.connection.channel.asUser "").rename
      (Twins.itself 0 0 (fun _ => True) True).across =
        s.1.bridge.connection.channel.asUser "" :=
    congrArg (fun b : Bridge => b.connection.channel.asUser "") heq.symm
  rw [hsame] at halike
  exact (halike.of_ok (Nat.le_refl _) h.itself.worlds hask hask).2

theorem Reachable.anew_setUsername (h : Reachable s) (username : String) :
    ∃ transport w b w', Anew s (s.1.bridge.config.withUsername username) transport w b w' ∧
      (step s (.setUsername username)).2 = s.1.withBridge b w' := by
  obtain ⟨b, w', hconnected⟩ := Bridge.exists_connected (s.1.bridge.config.withUsername username)
    s.1.bridge.transport s.2
  have hset := ofActOn_onBridge .fault (Bridge.setUsername_of_connected hconnected)
  have hperform : perform (.setUsername username) s =
      .ok .nothing ({ s.1 with bridge := b }, w') := bind_eq_of_ok hset
  exact ⟨_, s.2, b, w', ⟨Nat.le_refl _, h.itself.worlds.tidy, h.transport_lt, hconnected⟩,
    state_step_of_ok hperform⟩

theorem Reachable.anew_setTransport (h : Reachable s) (lines : List Script.Line) :
    ∃ transport w b w', Anew s s.1.bridge.config transport w b w' ∧
      (step s (.setTransport lines)).2 = s.1.withBridge b w' := by
  let added := s.2.step (.newTransport
    (Script.ofLines (s.2.script s.1.bridge.transport).latency lines))
  obtain ⟨b, w', hconnected⟩ := Bridge.exists_connected s.1.bridge.config s.2.fresh added
  have hset := ofActOn_onBridge .fault (Bridge.setTransport_of_connected hconnected)
  have hadded : perform (.setTransport lines) s =
      (Step.ofActOn .fault (onBridge (Bridge.setTransport s.2.fresh)) >>= fun _ => pure .nothing)
        (s.1, added) := rfl
  have hperform : perform (.setTransport lines) s =
      .ok .nothing ({ s.1 with bridge := b }, w') := hadded.trans (bind_eq_of_ok hset)
  exact ⟨_, added, b, w', ⟨Nat.le_succ _, h.itself.worlds.tidy.newTransport _,
    Nat.lt_succ_self _, hconnected⟩, state_step_of_ok hperform⟩

theorem Reachable.anew_pair (h : Reachable s) (hpaired : (step s .pair).1.outcome = .ok a) :
    ∃ username transport w b w', a = .text username ∧
      Anew s (s.1.bridge.config.withUsername username) transport w b w' ∧
      (step s .pair).2 = s.1.withBridge b w' := by
  obtain ⟨_, w', hperform, hstate⟩ := exists_of_outcome_ok hpaired
  obtain ⟨ending, _, hpair, hperform⟩ := exists_of_bind_ok hperform
  obtain ⟨b, _, hfound, rfl⟩ := exists_of_onBridge_ok hpair
  cases ending with
  | timeout | unfinished => nomatch hperform
  | user username =>
    cases hperform
    obtain ⟨started, attempts, w, hask, hconnected⟩ := Bridge.exists_of_pair hfound
    have hmoved := h.moved_ask hask
    exact ⟨username, _, w, b, w', rfl, ⟨hmoved.grown, hmoved.worlds.tidy,
      Nat.lt_of_lt_of_le h.transport_lt hmoved.grown, hconnected⟩, hstate⟩

theorem Switches.exists_anew (h : Switches old c new) :
    ∃ transport w b w',
      Anew old (old.1.bridge.config.withUsername
        (c.userAfter (step old c).1.outcome old.1.bridge.config.username)) transport w b w' ∧
      new = old.1.withBridge b w' := by
  obtain ⟨hreachable, hreconnects, hpaired, rfl⟩ := h
  cases c with
  | setUsername username => exact hreachable.anew_setUsername username
  | setTransport lines => exact hreachable.anew_setTransport lines
  | pair =>
    obtain ⟨a, houtcome⟩ := hpaired rfl
    obtain ⟨username, transport, w, b, w', rfl, hanew⟩ := hreachable.anew_pair houtcome
    rw [houtcome]
    exact ⟨transport, w, b, w', hanew⟩
  | _ => nomatch hreconnects

/-! ## Beside another switch -/

/-- A command uses nothing that a session keeps. -/
def Command.LeavesAlone (s : BridgeSession) (c : Command) : Prop :=
  (∀ name ∈ c.keptUsed, s.kept.get? name = none) ∧
    ∀ name ∈ c.changesUsed, s.changes.get? name = none

/-- Two sessions that have connected anew at the same instant, for the same configuration and with
the same replies to come, correspond but for what they keep from before. -/
theorem Anew.alike (asked : Request → Prop) {old' : BridgeSession × World} {config : Config}
    {transport transport' : TransportId} {w w' u u' : World} {b b' : Bridge} (h : Anew old config transport w b u)
    (h' : Anew old' config transport' w' b' u') (hold : Reachable old) (hold' : Reachable old')
    (hnow : u'.now = u.now) (hscript : u'.script transport' = u.script transport)
    (hasked : ∀ method path body, asked (b.connection.channel.compose method path body)) :
    StatesAlike (.newcomers w w' transport h'.known asked True)
      (Twins.InEither old.1.kept old'.1.kept) (Twins.InEither old.1.changes old'.1.changes)
      (old.1.withBridge b u) (old'.1.withBridge b' u') := by
  let t := Twins.newcomers w w' transport h'.known asked True
  have hworlds : t.Worlds w w' := by
    refine .newcomers h.tidy h'.tidy ?_ h.known h'.known ?_
    · rw [← h.connected.now, ← h'.connected.now, hnow]
    · rw [← h.connected.script, ← h'.connected.script, hscript]
  have hfits : config.Fits t := ⟨fun _ => trivial, fun _ _ => trivial⟩
  have hasks : config.Asks t := by
    intro slot reached method path body
    have hcompose := hasked method path body
    rw [h.connected.channel] at hcompose
    exact hcompose
  have hconnect := h'.connected.connects
  rw [show transport' = t.across.transport transport from (if_pos rfl).symm] at hconnect
  obtain ⟨hbridge, hmoved⟩ := (Bridge.alike_connect hfits hasks (.inr rfl)).of_ok (Nat.le_refl _)
    hworlds h.connected.connects hconnect
  -- what is kept from before has names from before
  have hsessions : t.Sessions _ _ u.fresh { old.1 with bridge := b } { old'.1 with bridge := b' } :=
    ⟨hbridge, .apart (hold.itself.sessions.kept.allFormer h.grown)
        (hold'.itself.sessions.kept.allFormer h'.grown),
      .apart (hold.itself.sessions.changes.allFormer h.grown)
        (hold'.itself.sessions.changes.allFormer h'.grown)⟩
  have hstates : StatesAlike t _ _ ({ old.1 with bridge := b }, u)
      ({ old'.1 with bridge := b' }, u') := ⟨hmoved.worlds, hsessions⟩
  exact hstates.settle

/-! ## Beside itself -/

/-- The nodes that are held beside the bridge. -/
def keptNodes (s : BridgeSession) : List NodeId :=
  s.kept.values.map (·.node) ++ s.changes.values.filterMap fun c => c.cache.map (·.node)

theorem held_stateAfter (h : s.2.held = s.1.held) (commands : List Command) :
    (stateAfter s commands).2.held = (stateAfter s commands).1.held :=
  Step.held_run h commands

theorem StatesAlike.not_holds {since : Nat} {transport : TransportId} {asked : Request → Prop}
    {kept changes : String → Prop}
    (h : StatesAlike (.itself since transport asked True) kept changes s s)
    (hheld : s.2.held = s.1.held) {node : NodeId} (hnode : node < since)
    (hkept : node ∉ s.1.keptNodes) : s.2.holds node = false := by
  rw [World.holds, Bool.eq_false_iff]
  intro hholds
  rw [List.contains_iff_mem, hheld, held, List.append_assoc] at hholds
  -- the bridge has nothing that is older
  rcases List.mem_append.mp hholds with hbridge | hbeside
  · exact Nat.not_lt.mpr (h.sessions.bridge.2.has_of_mem_held hbridge).1 hnode
  · exact hkept hbeside

theorem Command.LeavesAlone.fits {t : Twins} {old old' : BridgeSession} (h : c.LeavesAlone old)
    (h' : c.LeavesAlone old') (hendless : t.endless) (hasked : c.reconnects = true → ∀ r, t.asked r) :
    c.Fits t (Twins.InEither old.kept old'.kept) (Twins.InEither old.changes old'.changes) :=
  ⟨fun _ => hendless, hasked, fun name hname hnot => hnot ⟨h.1 name hname, h'.1 name hname⟩,
    fun name hname hnot => hnot ⟨h.2 name hname, h'.2 name hname⟩⟩

theorem Switches.reachable_new (h : Switches old c new) : Reachable new :=
  h.state ▸ h.reachable.next c

theorem Switches.held_new (h : Switches old c new) : new.2.held = new.1.held := by
  rw [← h.state, step_eq]
  rfl

/-- What was made since a switch is all that a session uses then, but for what it keeps. -/
theorem Switches.exists_itself (asked : Request → Prop) (h : Switches old c new)
    (hasked : ∀ method path body, asked (new.1.bridge.connection.channel.compose method path body)) :
    ∃ since transport, old.2.fresh ≤ since ∧
      StatesAlike (.itself since transport asked True) (Twins.InEither old.1.kept old.1.kept)
        (Twins.InEither old.1.changes old.1.changes) new new := by
  obtain ⟨transport, w, b, w', hanew, rfl⟩ := h.exists_anew
  exact ⟨w.fresh, transport, hanew.grown,
    hanew.alike asked hanew h.reachable h.reachable rfl rfl hasked⟩

theorem Switches.detached (h : Switches old c new) {cache : Cache} (hchild : cache.isRoot = false)
    (hroot : cache.rootNode < old.2.fresh) (commands : List Command)
    (hkept : cache.rootNode ∉ (stateAfter new commands).1.keptNodes) :
    cache.Detached (stateAfter new commands).2 := by
  obtain ⟨since, transport, hsince, hself⟩ := h.exists_itself (fun _ => True) fun _ _ _ => trivial
  have hlater := hself.run_itself h.reachable_new commands fun _ _ _ _ => trivial
  have hheld := held_stateAfter h.held_new commands
  have hnot := hlater.not_holds hheld (Nat.lt_of_lt_of_le hroot hsince) hkept
  exact Cache.detached_of_root_not_held hnot hchild

theorem Switches.asked (h : Switches old c new) {commands : List Command}
    (hcommands : ∀ d ∈ commands, d.reconnects = false) {d : Command} (hd : d.reconnects = false)
    (halone : d.LeavesAlone old.1) :
    ∀ x ∈ (step (stateAfter new commands) d).1.sent, ∃ method path body,
      x.request = new.1.bridge.connection.channel.compose method path body := by
  obtain ⟨since, transport, -, hself⟩ := h.exists_itself
    (fun r => ∃ method path body,
      r = new.1.bridge.connection.channel.compose method path body)
    fun method path body => ⟨method, path, body, rfl⟩
  have hnever {d : Command} (hd : d.reconnects = false) {P : Prop} : d.reconnects = true → P :=
    fun h => by rw [hd] at h; nomatch h
  have hlater := hself.run_itself h.reachable_new commands fun d hmem => hnever (hcommands d hmem)
  exact (step_alike hlater (halone.fits halone trivial (hnever hd))).1.asked

theorem Switches.seen_alike {old' new' : BridgeSession × World} {c' : Command}
    (h : Switches old c new) (h' : Switches old' c' new') (hnow : new'.2.now = new.2.now)
    (hconfig : new'.1.bridge.config = new.1.bridge.config)
    (hscript : new'.2.script new'.1.bridge.transport = new.2.script new.1.bridge.transport)
    {commands : List Command}
    (hcommands : ∀ d ∈ commands, d.LeavesAlone old.1 ∧ d.LeavesAlone old'.1) :
    (run new' commands).map Observed.nameless = (run new commands).map Observed.nameless := by
  obtain ⟨transport, w, b, u, hanew, rfl⟩ := h.exists_anew
  obtain ⟨transport', w', b', u', hanew', rfl⟩ := h'.exists_anew
  have hsame := hanew'.connected.configured.symm.trans (hconfig.trans hanew.connected.configured)
  rw [hsame] at hanew'
  have hreplies : u'.script transport' = u.script transport := by
    rw [← hanew.connected.reached, ← hanew'.connected.reached]
    exact hscript
  have halike := hanew.alike (fun _ => True) hanew' h.reachable h'.reachable hnow hreplies
    fun _ _ _ => trivial
  have hseen := (run_alike halike fun d hd =>
    (hcommands d hd).1.fits (hcommands d hd).2 trivial fun _ _ => trivial).1
  have hall : List.Forall₂ Eq _ _ := List.forall₂_map_left_iff.mpr
    (List.forall₂_map_right_iff.mpr (hseen.imp fun _ _ h => h.nameless.symm))
  rw [List.forall₂_eq_eq_eq] at hall
  exact hall.symm

theorem Switches.peek_new (h : Switches old c new) :
    new.1.bridge.connection.state.peek new.2 = .error (.cacheEmpty "") new.2 := by
  obtain ⟨transport, w, b, w', hanew, rfl⟩ := h.exists_anew
  -- the root has a name that was not given out before, so nothing is held under it
  have hnone : w'.snapshots.get? (w.fresh + 1) = none := by
    rw [hanew.connected.snapshots]
    exact hanew.tidy.snapshots _ (Nat.le_succ _)
  show b.connection.state.peek _ = _
  rw [hanew.connected.state, Cache.peek, Cache.rootValue]
  simp only [withBridge, World.settle, hnone]

/-- The roots that a session and its bridge read from were given out. -/
theorem Reachable.rootNode_lt (h : Reachable s) :
    s.1.bridge.connection.state.rootNode < s.2.fresh ∧
      ∀ name cache, s.1.kept.get? name = some cache → cache.rootNode < s.2.fresh := by
  have hsessions := h.itself.sessions
  refine ⟨hsessions.bridge.2.connection.state.rootNode.2, fun name cache hcache => ?_⟩
  have hwithin := (hsessions.kept.shared name not_false).2 cache hcache
  exact (Cache.Within.rootNode hwithin).2

/-- **Switching.** After a session has switched its transport or its user, no collection has an entry
and the state is not held; whatever is done then, other switches apart, everything that is asked of
the bridge goes out through the new channel and as the user of the configuration. Two sessions that
have switched at the same instant, have the same configuration and are going to have the same
replies do the same from then on, whatever they were sent before; what is kept from before is not to
be used. A view that was made before fails whatever it is asked for, and does nothing, as long as the
root that it reads from is not itself kept. -/
theorem switch_leaves_nothing_behind (h : Switches old c new) :
    let config :=
      old.1.bridge.config.withUsername
        (c.userAfter (step old c).1.outcome old.1.bridge.config.username)
    new.1.bridge.config = config ∧ new.1.bridge.connection.Bare ∧
    new.1.bridge.connection.state.peek new.2 = .error (.cacheEmpty "") new.2 ∧
    new.1.bridge.connection.channel.username = config.username ∧
    (∀ commands : List Command, (∀ d ∈ commands, d.reconnects = false) →
      ∀ d : Command, d.reconnects = false → d.LeavesAlone old.1 →
      ∀ x ∈ (step (stateAfter new commands) d).1.sent, ∃ method path body,
        x.request = new.1.bridge.connection.channel.compose method path body) ∧
    (∀ old' c' new', Switches old' c' new' → new'.2.now = new.2.now →
      new'.1.bridge.config = config →
      new'.2.script new'.1.bridge.transport = new.2.script new.1.bridge.transport →
      ∀ commands : List Command, (∀ d ∈ commands, d.LeavesAlone old.1 ∧ d.LeavesAlone old'.1) →
        (run new' commands).map Observed.nameless = (run new commands).map Observed.nameless) ∧
    old.1.bridge.connection.state.rootNode < old.2.fresh ∧
    (∀ name cache, old.1.kept.get? name = some cache → cache.rootNode < old.2.fresh) ∧
    ∀ cache : Cache, cache.isRoot = false → cache.rootNode < old.2.fresh →
      ∀ commands, cache.rootNode ∉ (stateAfter new commands).1.keptNodes →
        cache.Detached (stateAfter new commands).2 := by
  intro config
  obtain ⟨hstate, hkept⟩ := h.reachable.rootNode_lt
  obtain ⟨transport, w, b, w', hanew, hnew⟩ := h.exists_anew
  have hbridge : new.1.bridge = b := by rw [hnew]; rfl
  have hconfig : new.1.bridge.config = config := by rw [hbridge, hanew.connected.configured]
  refine ⟨hconfig, ?_, h.peek_new, ?_, fun commands hcommands d hd halone =>
    h.asked hcommands hd halone, ?_, hstate, hkept, fun cache hchild hroot commands hnot =>
    h.detached hchild hroot commands hnot⟩
  · rw [hbridge]
    exact hanew.connected.bare
  · rw [hbridge, hanew.connected.channel]
  · intro old' c' new' h' hnow hconfig' hscript commands hcommands
    exact h.seen_alike h' hnow (hconfig'.trans hconfig.symm) hscript hcommands

/-- Two sessions are told different lights before they switch to another user, and what they are
told then is the same. -/
theorem lights_forgotten_after_switch :
    let config :=
      { Config.forAddress "192.168.2.116" with username := "a", minDelay := .millis 0 }
    let script (lights : String) := Script.ofLines 0 [.once .get "/api/a" (.ok lights),
      .always .get "/api/b" "\x7b\"lights\":\x7b\"2\":\x7b\x7d\x7d\x7d"]
    let list := Command.onSection .lights .getAll
    let before := [.keepSection "lights" .lights, list]
    ∃ s w s' w',
      start config (script "\x7b\"lights\":\x7b\"1\":\x7b\x7d\x7d\x7d") World.start = .ok s w ∧
      start config (script "\x7b\"lights\":\x7b\x7d\x7d") World.start = .ok s' w' ∧
      let old := stateAfter (s, w) before
      let old' := stateAfter (s', w') before
      let new := (step old (.setUsername "b")).2
      let new' := (step old' (.setUsername "b")).2
      old.1.bridge.connection.lights.entries.map (·.id) = [1] ∧
      old'.1.bridge.connection.lights.entries.map (·.id) = [] ∧
      Switches old (.setUsername "b") new ∧ Switches old' (.setUsername "b") new' ∧
      new.1.bridge.connection.Bare ∧
      (run new' [list]).map Observed.nameless = (run new [list]).map Observed.nameless ∧
      (stateAfter new [list]).1.bridge.connection.lights.entries.map (·.id) = [2] ∧
      ∃ cache, old.1.kept.get? "lights" = some cache ∧ cache.Detached new.2 := by
  intro config script list before
  have hruns : ∃ s w s' w',
      start config (script "\x7b\"lights\":\x7b\"1\":\x7b\x7d\x7d\x7d") World.start = .ok s w ∧
      start config (script "\x7b\"lights\":\x7b\x7d\x7d") World.start = .ok s' w' ∧
      let old := stateAfter (s, w) before
      let old' := stateAfter (s', w') before
      let new := (step old (.setUsername "b")).2
      let new' := (step old' (.setUsername "b")).2
      old.1.bridge.connection.lights.entries.map (·.id) = [1] ∧
      old'.1.bridge.connection.lights.entries.map (·.id) = [] ∧
      new'.2.now = new.2.now ∧ old'.1.bridge.config = old.1.bridge.config ∧
      new'.2.script new'.1.bridge.transport = new.2.script new.1.bridge.transport ∧
      (stateAfter new [list]).1.bridge.connection.lights.entries.map (·.id) = [2] ∧
      (old.1.kept.get? "lights").any (fun cache =>
        cache.isRoot = false ∧ cache.rootNode ∉ new.1.keptNodes) = true :=
    ⟨_, _, _, _, rfl, rfl, by decide +kernel⟩
  obtain ⟨s, w, s', w', hstart, hstart', hold, hold', hnow, hconfig, hscript, hlater, hkept⟩ := hruns
  have hswitch : Switches (stateAfter (s, w) before) (.setUsername "b") _ :=
    ⟨⟨_, _, s, w, before, hstart, rfl⟩, rfl, nofun, rfl⟩
  have hswitch' : Switches (stateAfter (s', w') before) (.setUsername "b") _ :=
    ⟨⟨_, _, s', w', before, hstart', rfl⟩, rfl, nofun, rfl⟩
  obtain ⟨-, hbare, -, -, -, hseen, -, hroots, hdetached⟩ := switch_leaves_nothing_behind hswitch
  have hconfig' := (switch_leaves_nothing_behind hswitch').1
  rw [hconfig] at hconfig'
  have halone (u : BridgeSession) : ∀ d ∈ [list], d.LeavesAlone u := by
    intro d hd
    rw [List.mem_singleton.mp hd]
    exact ⟨nofun, nofun⟩
  refine ⟨s, w, s', w', hstart, hstart', hold, hold', hswitch, hswitch', hbare,
    hseen _ _ _ hswitch' hnow hconfig' hscript [list] fun d hd => ⟨halone _ d hd, halone _ d hd⟩,
    hlater, ?_⟩
  obtain ⟨cache, hcache, hview⟩ := (Option.any_eq_true _ _).mp hkept
  obtain ⟨hchild, hnot⟩ := of_decide_eq_true hview
  exact ⟨cache, hcache, hdetached cache hchild (hroots _ _ hcache) [] hnot⟩

end BridgeSession

end LightBridge
