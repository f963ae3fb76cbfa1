import LightBridge.Proofs.Bridge.Pairing
import LightBridge.Proofs.Session.Overflow
import LightBridge.Proofs.Session.Switch

/-!
# Pairing from a session

Pairing takes a bounded number of turns when pauses or delays make time pass, and it changes nothing
but the log of requests and the clock unless a bridge names a user; then the session goes on with a
bridge that is connected anew as that user.
-/

namespace LightBridge.BridgeSession

variable {s : BridgeSession × World}

/-! ## Reachable sessions -/

theorem Reachable.exists_tracked (h : Reachable s) :
    ∃ config opened, Tracked config (Over config) opened s := by
  obtain ⟨config, script, s₁, w₁, commands, hstart, rfl⟩ := h
  obtain ⟨-, opened, hmoves⟩ := moves_start hstart
  obtain ⟨⟨opened', hmoves'⟩, -⟩ := moves_stateAfter hmoves.tracked commands
  exact ⟨config, opened', hmoves'.tracked⟩

theorem Reachable.sent_step (h : Reachable s) (c : Command) :
    (step s c).2.2.sent = s.2.sent ++ (step s c).1.sent := by
  obtain ⟨config, opened, htracked⟩ := h.exists_tracked
  exact sent_eq_of_moves htracked c

/-- The channel of a bridge leads to the target of its configuration. -/
theorem Reachable.channel_eq (h : Reachable s) :
    s.1.bridge.connection.channel.address = s.1.bridge.config.address ∧
      s.1.bridge.connection.channel.port = s.1.bridge.config.port ∧
      s.1.bridge.connection.channel.minDelay = s.1.bridge.config.minDelay := by
  obtain ⟨config, opened, htracked⟩ := h.exists_tracked
  have htarget := htracked.belongs.bridge.target
  have hchannel := htracked.belongs.bridge.connection.channel
  exact ⟨hchannel.address.trans htarget.address.symm, hchannel.port.trans htarget.port.symm,
    hchannel.minDelay.trans htarget.minDelay.symm⟩

/-! ## What pairing answers -/

/-- What a session is told when asking for a user has ended. -/
def told (config : Config) : Except Fault Pairing.Ending → Except SessionError Answer
  | .ok (.user username) => .ok (.text username)
  | .ok .timeout => .error (.client (.linkButtonTimeout config.pairingTimeout))
  | .ok .unfinished => .error .unending
  | .error e => .error (.client (.fault e))

/-- Pairing fails and leaves the session alone, or it succeeds and the session goes on with a bridge
that is connected anew in the world in which asking has ended. -/
theorem perform_pair (s : BridgeSession × World) :
    let config := s.1.bridge.config
    let asked := outcome (s.1.bridge.asking s.2) s.2
    let u := after (s.1.bridge.asking s.2) s.2
    (∃ e, told config asked = .error e ∧ perform .pair s = .error e (s.1, u)) ∨
      ∃ username b w, asked = .ok (.user username) ∧
        Bridge.Connected (config.withUsername username) s.1.bridge.transport u b w ∧
        perform .pair s = .ok (.text username) ({ s.1 with bridge := b }, w) := by
  intro config asked u
  cases hask : s.1.bridge.asking s.2 s.2 with
  | error e v =>
    have hpair := Bridge.pair_of_error hask
    refine .inl ⟨.client (.fault e), by rw [show asked = _ from outcome_of_error hask, told], ?_⟩
    rw [show u = v from after_of_error hask]
    simp only [perform, pair, Step.asClient, Step.ofActOn, bind, EStateM.bind, onBridge,
      ActOn.within, hpair]
  | ok ending v =>
    have hasked : asked = .ok ending := outcome_of_ok hask
    have hu : u = v := after_of_ok hask
    cases ending with
    | timeout =>
      have hpair : Step.asClient (onBridge Bridge.pair) s = .ok .timeout (s.1, v) :=
        ofActOn_onBridge _ (Bridge.pair_of_no_user hask fun _ h => by cases h)
      refine .inl ⟨.client (.linkButtonTimeout config.pairingTimeout), by rw [hasked, told], ?_⟩
      rw [hu]
      exact bind_eq_of_ok hpair
    | unfinished =>
      have hpair : Step.asClient (onBridge Bridge.pair) s = .ok .unfinished (s.1, v) :=
        ofActOn_onBridge _ (Bridge.pair_of_no_user hask fun _ h => by cases h)
      refine .inl ⟨.unending, by rw [hasked, told], ?_⟩
      rw [hu]
      exact bind_eq_of_ok hpair
    | user username =>
      obtain ⟨b, w, hconnected, hpair⟩ := Bridge.exists_pair_of_user hask
      have hpaired : Step.asClient (onBridge Bridge.pair) s =
          .ok (.user username) ({ s.1 with bridge := b }, w) := ofActOn_onBridge _ hpair
      rw [hu]
      exact .inr ⟨username, b, w, hasked, hconnected, bind_eq_of_ok hpaired⟩

theorem outcome_pair (s : BridgeSession × World) :
    (step s .pair).1.outcome =
      told s.1.bridge.config (outcome (s.1.bridge.asking s.2) s.2) := by
  rcases perform_pair s with ⟨e, htold, hperform⟩ | ⟨username, b, w, hasked, -, hperform⟩
  · rw [htold, outcome_step_of_error hperform]
  · rw [hasked, told, outcome_step_of_ok hperform]

theorem sent_pair (s : BridgeSession × World) :
    (step s .pair).2.2.sent = (after (s.1.bridge.asking s.2) s.2).sent := by
  rcases perform_pair s with ⟨e, -, hperform⟩ | ⟨username, b, w, -, hconnected, hperform⟩
  · rw [state_step_of_error hperform]
    rfl
  · rw [state_step_of_ok hperform]
    exact hconnected.sent

/-! ## What pairing leaves alone -/

theorem Reachable.application_eq (h : Reachable s) :
    let config := s.1.bridge.config
    Pairing.application config (s.1.bridge.connection.channel.asUser "") =
      { method := .post, address := config.address, port := config.port, uri := "/api",
        body := (Json.object [("devicetype", .string config.deviceType)]).text } := by
  intro config
  obtain ⟨haddress, hport, -⟩ := h.channel_eq
  show Request.mk .post s.1.bridge.connection.channel.address
    s.1.bridge.connection.channel.port "/api" _ = _
  rw [haddress, hport]
  rfl

theorem applies_asking (s : BridgeSession × World) :
    Pairing.Applies s.1.bridge.config (s.1.bridge.connection.channel.asUser "") s.2
      (after (s.1.bridge.asking s.2) s.2) :=
  Pairing.applies_ask ..

theorem Reachable.sent_of_pair (h : Reachable s) :
    ∀ x ∈ (step s .pair).1.sent,
      x.request =
        Pairing.application s.1.bridge.config (s.1.bridge.connection.channel.asUser "") := by
  obtain ⟨sent, hsent, hall⟩ := (applies_asking s).sent
  have hstep := h.sent_step .pair
  rw [sent_pair, hsent] at hstep
  rwa [← List.append_cancel_left hstep]

theorem unchanged_of_pair_error {e : SessionError} (h : (step s .pair).1.outcome = .error e) :
    (step s .pair).2.1 = s.1 ∧ (step s .pair).2.2.snapshots = s.2.snapshots := by
  rcases perform_pair s with ⟨e', -, hperform⟩ | ⟨username, b, w, -, -, hperform⟩
  · rw [state_step_of_error hperform]
    exact ⟨rfl, (applies_asking s).caches.snapshots⟩
  · rw [outcome_step_of_ok hperform] at h
    nomatch h

/-- A session has paired: after `n` refused requests one was answered by a reply that names the user,
and then a bridge was connected anew as that user. -/
structure Paired (s : BridgeSession × World) (username : String) (n : Nat) (reply : Json)
    (b : Bridge) (w : World) : Prop where
  goes : let c := s.1.bridge.connection.channel.asUser ""
    ∀ k < n, Pairing.Goes s.1.bridge.config c s.2.now (Pairing.turn s.1.bridge.config c s.2 k)
  replied : let c := s.1.bridge.connection.channel.asUser ""
    outcome (c.request .post "" (Pairing.body s.1.bridge.config))
      (Pairing.turn s.1.bridge.config c s.2 n) = .ok reply
  registers : Reply.Registers reply username
  connected : let c := s.1.bridge.connection.channel.asUser ""
    Bridge.Connected (s.1.bridge.config.withUsername username) s.1.bridge.transport
      (Pairing.answered s.1.bridge.config c (Pairing.turn s.1.bridge.config c s.2 n)) b w
  state : (step s .pair).2 = s.1.withBridge b w

theorem exists_turn_of_asking (s : BridgeSession × World) :
    let config := s.1.bridge.config
    let c := s.1.bridge.connection.channel.asUser ""
    let begun := Pairing.turn config c s.2
    ∃ n, (∀ k < n, Pairing.Goes config c s.2.now (begun k)) ∧
      (Pairing.Ends config c s.2.now (begun n) (outcome (s.1.bridge.asking s.2) s.2) ∧
          after (s.1.bridge.asking s.2) s.2 = Pairing.answered config c (begun n) ∨
        s.1.bridge.asking s.2 s.2 = .ok .unfinished (begun n)) := by
  intro config c begun
  obtain ⟨n, hgoes, hlast⟩ := Pairing.exists_turn config c s.2.now
    (Pairing.enough config ((s.2.script c.transport).waiting .post (c.uri ""))) s.2
  exact ⟨n, hgoes, hlast.imp And.right And.right⟩

theorem exists_of_paired {a : Answer} (h : (step s .pair).1.outcome = .ok a) :
    ∃ username n reply b w, a = .text username ∧ Paired s username n reply b w := by
  rcases perform_pair s with ⟨e, -, hperform⟩ | ⟨username, b, w, hasked, hconnected, hperform⟩
  · rw [outcome_step_of_error hperform] at h
    nomatch h
  · rw [outcome_step_of_ok hperform] at h
    cases h
    obtain ⟨n, hgoes, ⟨hends, hafter⟩ | hunfinished⟩ := exists_turn_of_asking s
    · rw [hasked] at hends
      cases hends with
      | registered hverdict =>
        obtain ⟨reply, hreply, hregisters⟩ := Pairing.verdict_eq_ok_some_iff.mp hverdict
        rw [hafter] at hconnected
        exact ⟨username, n, reply, b, w, rfl, hgoes, hreply, hregisters, hconnected,
          state_step_of_ok hperform⟩
    · rw [outcome_of_ok hunfinished] at hasked
      cases hasked

/-- **Pairing changes a session wholly or not at all.** Whatever replies come, all that is sent is
the application for a user, under the name of the configuration and as no user. Pairing succeeds
with the user that the last reply names, in the first entry that acknowledges a user, and the session
goes on with a bridge that is connected anew as that user, with nothing fetched and no entries. When
it fails, in whatever way, the session is what it was, and so is what the caches hold. -/
theorem pairing_all_or_nothing (h : Reachable s) :
    let config := s.1.bridge.config
    let paired := step s .pair
    (∀ x ∈ paired.1.sent, x.request =
      { method := .post, address := config.address, port := config.port, uri := "/api",
        body := (Json.object [("devicetype", .string config.deviceType)]).text }) ∧
    (∀ a, paired.1.outcome = .ok a →
      ∃ username n reply b w, a = .text username ∧ Paired s username n reply b w ∧
        paired.2.1.bridge.connection.state.peek paired.2.2 =
          .error (.cacheEmpty "") paired.2.2) ∧
    ∀ e, paired.1.outcome = .error e →
      paired.2.1 = s.1 ∧ paired.2.2.snapshots = s.2.snapshots := by
  intro config paired
  refine ⟨?_, fun a ha => ?_, fun e he => unchanged_of_pair_error he⟩
  · rw [← h.application_eq]
    exact h.sent_of_pair
  · obtain ⟨username, n, reply, b, w, hanswer, hpaired⟩ := exists_of_paired ha
    have hswitches : Switches s .pair paired.2 := ⟨h, rfl, fun _ => ⟨a, ha⟩, rfl⟩
    exact ⟨username, n, reply, b, w, hanswer, hpaired, hswitches.peek_new⟩

/-- The link button is pressed after one refusal. -/
theorem paired_after_one_refusal :
    let config := { Config.forAddress "192.168.2.116" with username := "old" }
    let script := Script.ofLines 20
      [.once .post "/api" (.ok "[\x7b\"error\":\x7b\"type\":101\x7d\x7d]"),
        .once .post "/api" (.ok "[\x7b\"success\":\x7b\"username\":\"new\"\x7d\x7d]")]
    ∃ s w, start config script World.start = .ok s w ∧
      (step (s, w) .pair).2.1.bridge.config = config.withUsername "new" ∧
      (step (s, w) .pair).2.1.bridge.connection.Bare ∧
      (step (s, w) .pair).1.sent.map (·.sentAt) = [0, 1020] ∧
      ∀ x ∈ (step (s, w) .pair).1.sent,
        x.request.body = (Json.object [("devicetype", .string config.deviceType)]).text := by
  intro config script
  have hrun : ∃ s w, start config script World.start = .ok s w ∧ s.bridge.config = config ∧
      (outcome (s.bridge.asking w) w).toOption = some (.user "new") ∧
      (step (s, w) .pair).1.sent.map (·.sentAt) = [0, 1020] :=
    ⟨_, _, rfl, rfl, by decide +kernel⟩
  obtain ⟨s, w, hstart, hconfig, hpaired, htimes⟩ := hrun
  have hreachable : Reachable (s, w) := ⟨_, _, s, w, [], hstart, rfl⟩
  obtain ⟨hsent, hok, -⟩ := pairing_all_or_nothing hreachable
  have houtcome : (step (s, w) .pair).1.outcome = .ok (.text "new") := by
    rw [outcome_pair, eq_ok_of_toOption hpaired, told]
  obtain ⟨username, n, reply, b, u, hanswer, hnew, -⟩ := hok _ houtcome
  cases hanswer
  refine ⟨s, w, hstart, ?_, ?_, htimes, fun x hx => ?_⟩
  · rw [hnew.state]
    show b.config = _
    rw [hnew.connected.configured, hconfig]
  · rw [hnew.state]
    exact hnew.connected.bare
  · rw [hsent x hx, hconfig]

/-! ## The time that pairing takes -/

/-- **Pairing ends in time.** Let time pass between two requests, by the pause or by the delay: then
pairing makes as many requests as the longer of both fits into the timeout, rounded up, and one more
at most. The first request is begun at the start and every other one within the timeout and one
pause; it is begun only after a refusal for the link button that was answered before the timeout, and
after the pause. Pairing gives up exactly when such a refusal comes after the timeout, and whatever
else a request comes to, it answers at once. -/
theorem pairing_ends_in_time (h : Reachable s) {t i d : Nat}
    (ht : s.1.bridge.config.pairingTimeout = .millis t)
    (hi : s.1.bridge.config.pairingInterval = .millis i)
    (hd : s.1.bridge.config.minDelay = .millis d) (hM : 0 < max i d) :
    let config := s.1.bridge.config
    let c := s.1.bridge.connection.channel.asUser ""
    let begun := Pairing.turn config c s.2
    let answered := fun k => Pairing.answered config c (begun k)
    let result := (step s .pair).1.outcome
    ∃ last, last + 1 ≤ (t + max i d - 1) / max i d + 1 ∧
      begun 0 = s.2 ∧ (∀ k ≤ last, k ≠ 0 → (begun k).now < s.2.now + t + i) ∧
      (∀ k < last, Pairing.Refused config c (begun k) ∧ (answered k).now < s.2.now + t ∧
        begun (k + 1) = (answered k).step (.pass i)) ∧
      (step s .pair).2.2.sent = (answered last).sent ∧
      (result = .error (.client (.linkButtonTimeout (.millis t))) ↔
        ∃ k ≤ last, Pairing.Refused config c (begun k) ∧ s.2.now + t ≤ (answered k).now) ∧
      (∀ k ≤ last, ∀ e, Pairing.verdict config c (begun k) = .error e →
        k = last ∧ result = .error (.client (.fault e))) ∧
      ∀ username, Pairing.verdict config c (begun last) = .ok (some username) →
        result = .ok (.text username) := by
  intro config c begun answered result
  have hdelay : c.minDelay = .millis d := h.channel_eq.2.2.trans hd
  obtain ⟨last, hbound, hgoes, hends, hafter⟩ := Pairing.exists_last_turn ht hi hdelay hM
    ((s.2.script c.transport).waiting .post (c.uri "")) s.2
  change Pairing.Ends config c s.2.now (begun last) (outcome (s.1.bridge.asking s.2) s.2) at hends
  change after (s.1.bridge.asking s.2) s.2 = answered last at hafter
  have hresult : result = told config (outcome (s.1.bridge.asking s.2) s.2) := outcome_pair s
  have hearly (k : Nat) (hk : k < last) : (answered k).now < s.2.now + t :=
    (Pairing.Goes.bound ht hi hdelay (hgoes k hk)).1
  have hnext (k : Nat) : begun (k + 1) = (answered k).step (.pass i) := by
    show Pairing.turn config c s.2 (k + 1) = _
    rw [Pairing.turn_succ', Pairing.again, hi]
    rfl
  have hbegun (k : Nat) (hk : k ≤ last) (hne : k ≠ 0) : (begun k).now < s.2.now + t + i := by
    obtain ⟨j, rfl⟩ := Nat.exists_eq_succ_of_ne_zero hne
    rw [Nat.succ_eq_add_one, hnext]
    exact Nat.add_lt_add_right (hearly j hk) i
  have hlate := Pairing.late_turn_iff ht hi hdelay s.2 last
  have hfinite : config.pairingInterval ≠ .never := by
    rw [hi]
    exact Duration.noConfusion
  -- a turn before the last one is refused, and answered in time
  have hlast {k : Nat} (hk : k ≤ last) (h : Pairing.Refused config c (begun k) →
      s.2.now + t ≤ (answered k).now) : k = last := by
    refine (Nat.lt_or_eq_of_le hk).resolve_left fun hlt => ?_
    exact Nat.not_le.mpr (hearly k hlt) (h (hgoes k hlt).refused)
  refine ⟨last, Nat.succ_le_succ hbound, rfl, hbegun,
    fun k hk => ⟨(hgoes k hk).refused, hearly k hk, hnext k⟩, (sent_pair s).trans ?_, ?_, ?_, ?_⟩
  · rw [hafter]
  · constructor
    · intro htimeout
      cases hverdict : Pairing.verdict config c (begun last) with
      | error e =>
        rw [hresult, hends.of_error hverdict] at htimeout
        cases htimeout
      | ok found =>
        cases found with
        | some username =>
          rw [hresult, hends.of_some hverdict] at htimeout
          cases htimeout
        | none =>
          have hrefused := Pairing.verdict_eq_ok_none_iff.mp hverdict
          exact ⟨last, Nat.le_refl _, hrefused, hlate.mp (hends.of_refused hrefused hfinite).1⟩
    · rintro ⟨k, hk, hrefused, hafterwards⟩
      obtain rfl := hlast hk fun _ => hafterwards
      rw [hresult, (hends.of_refused hrefused hfinite).2, told, ht]
  · intro k hk e hverdict
    have hnot : ¬ Pairing.Refused config c (begun k) := by
      intro hrefused
      cases (Pairing.verdict_eq_ok_none_iff.mpr hrefused).symm.trans hverdict
    obtain rfl := hlast hk fun hrefused => absurd hrefused hnot
    refine ⟨rfl, ?_⟩
    rw [hresult, hends.of_error hverdict, told]
  · intro username hverdict
    rw [hresult, hends.of_some hverdict, told]

/-- The link button is never pressed, and the bound is reached: three pauses begin within the
timeout, and there are four requests. -/
theorem unpressed_until_timeout :
    let config := { Config.forAddress "192.168.2.116" with
      pairingTimeout := .millis 250, pairingInterval := .millis 100 }
    ∃ s w, start config .unpressed World.start = .ok s w ∧
      (step (s, w) .pair).1.sent.map (·.sentAt) = [0, 100, 200, 300] ∧
      (step (s, w) .pair).1.outcome = .error (.client (.linkButtonTimeout (.millis 250))) ∧
      let c := s.bridge.connection.channel.asUser ""
      let begun := Pairing.turn s.bridge.config c w
      ∃ last ≤ 3, Pairing.Refused s.bridge.config c (begun last) ∧
        w.now + 250 ≤ (Pairing.answered s.bridge.config c (begun last)).now := by
  intro config
  have hrun : ∃ s w, start config .unpressed World.start = .ok s w ∧ s.bridge.config = config ∧
      (step (s, w) .pair).1.sent.map (·.sentAt) = [0, 100, 200, 300] ∧
      (outcome (s.bridge.asking w) w).toOption = some .timeout :=
    ⟨_, _, rfl, rfl, by decide +kernel⟩
  obtain ⟨s, w, hstart, hconfig, htimes, hasked⟩ := hrun
  have houtcome : (step (s, w) .pair).1.outcome =
      .error (.client (.linkButtonTimeout (.millis 250))) := by
    rw [outcome_pair, eq_ok_of_toOption hasked, told, hconfig]
  have hreachable : Reachable (s, w) := ⟨_, _, s, w, [], hstart, rfl⟩
  obtain ⟨last, hlast, -, -, -, -, htimeout, -⟩ :=
    pairing_ends_in_time hreachable (congrArg Config.pairingTimeout hconfig)
      (congrArg Config.pairingInterval hconfig) (congrArg Config.minDelay hconfig) (by decide)
  obtain ⟨k, hk, hlate⟩ := htimeout.mp houtcome
  exact ⟨s, w, hstart, htimes, houtcome, k, Nat.le_trans hk (Nat.le_of_succ_le_succ hlast), hlate⟩

end LightBridge.BridgeSession
