import LightBridge.Proofs.Bridge.Connected
import LightBridge.Proofs.Channel.Retry
import Mathlib.Logic.Function.Iterate

/-!
# Pairing, turn by turn

Asking for a user takes turns: a request is made, and when it is refused because the link button is
not pressed, the next turn begins after a pause. What is asked in a turn depends only on the world in
which it begins, so the turns are the iterates of one function on worlds, and asking is told by how
many of them are refused and how the one after them ends.
-/

namespace LightBridge

/-! ## What a reply says about pairing -/

namespace Reply

/-- The first error in a reply says that the link button is not pressed. -/
def Unpressed (reply : Json) : Prop :=
  ∃ earlier entry later error, reply = .array (earlier ++ entry :: later) ∧
    (∀ e ∈ earlier, e.get? "error" = none) ∧ entry.get? "error" = some error ∧
    (error.get? "type").bind Json.int64? = some 101

/-- A reply without an error names a user in the first entry that acknowledges a user at all. -/
def Registers (reply : Json) (username : String) : Prop :=
  ∃ earlier entry later, reply = .array (earlier ++ entry :: later) ∧
    (∀ e ∈ earlier ++ entry :: later, e.get? "error" = none) ∧
    (∀ e ∈ earlier, (e.get? "success").bind (·.get? "username") = none) ∧
    (entry.get? "success").bind (·.get? "username") = some (.string username)

theorem refusal?_array_eq_none_iff {entries : List Json} :
    refusal? (.array entries) = none ↔ ∀ e ∈ entries, e.get? "error" = none := by
  rw [refusal?, Option.map_eq_none_iff, List.findSome?_eq_none_iff]

theorem code_refusal_eq_iff {error : Json} :
    (refusal error).code = 101 ↔ (error.get? "type").bind Json.int64? = some 101 := by
  unfold refusal
  cases (error.get? "type").bind Json.int64? with
  | none => simp
  | some n => simp

theorem unpressed_iff {reply : Json} :
    Unpressed reply ↔ ∃ r, refusal? reply = some r ∧ r.code = 101 := by
  constructor
  · rintro ⟨earlier, entry, later, error, rfl, hearlier, hentry, hcode⟩
    refine ⟨refusal error, ?_, code_refusal_eq_iff.mpr hcode⟩
    exact Option.map_eq_some_iff.mpr ⟨error,
      List.findSome?_eq_some_iff.mpr ⟨earlier, entry, later, rfl, hentry, hearlier⟩, rfl⟩
  · rintro ⟨r, hr, hcode⟩
    cases reply with
    | array entries =>
      obtain ⟨error, herror, rfl⟩ := Option.map_eq_some_iff.mp hr
      obtain ⟨earlier, entry, later, rfl, hentry, hearlier⟩ :=
        List.findSome?_eq_some_iff.mp herror
      exact ⟨earlier, entry, later, error, rfl, hearlier, hentry, code_refusal_eq_iff.mp hcode⟩
    | _ => nomatch hr

theorem registers_iff {reply : Json} {username : String} :
    Registers reply username ↔
      refusal? reply = none ∧ acknowledged? reply "username" = some (.string username) := by
  constructor
  · rintro ⟨earlier, entry, later, rfl, hunrefused, hearlier, hentry⟩
    exact ⟨refusal?_array_eq_none_iff.mpr hunrefused,
      List.findSome?_eq_some_iff.mpr ⟨earlier, entry, later, rfl, hentry, hearlier⟩⟩
  · rintro ⟨hrefusal, hacknowledged⟩
    cases reply with
    | array entries =>
      obtain ⟨earlier, entry, later, rfl, hentry, hearlier⟩ :=
        List.findSome?_eq_some_iff.mp hacknowledged
      exact ⟨earlier, entry, later, rfl, refusal?_array_eq_none_iff.mp hrefusal, hearlier, hentry⟩
    | _ => nomatch hacknowledged

end Reply

namespace Pairing

open Reply (Unpressed Registers)

section Judge

variable {reply : Json} {username : String}

theorem judge_eq_ok_none_iff : judge reply = .ok none ↔ Unpressed reply := by
  rw [Reply.unpressed_iff]
  unfold judge linkButtonNotPressed
  cases Reply.refusal? reply with
  | none => cases (Reply.acknowledged? reply "username").bind Json.string? <;> simp
  | some r => by_cases hcode : r.code = 101 <;> simp [hcode]

theorem judge_eq_ok_some_iff : judge reply = .ok (some username) ↔ Registers reply username := by
  have hstring (v : Json) : v.string? = some username ↔ v = .string username := by
    cases v <;> simp [Json.string?]
  rw [Reply.registers_iff]
  unfold judge
  cases Reply.refusal? reply with
  | some r => by_cases hcode : r.code = linkButtonNotPressed <;> simp [hcode]
  | none =>
    cases hfound : Reply.acknowledged? reply "username" with
    | none => simp
    | some v =>
      rw [Option.bind_some, Option.some.injEq, ← hstring]
      cases v.string? <;> simp

end Judge

/-! ## Turns -/

/-- The world in which a pairing request that is made in `u` has been answered, or has failed. -/
def answered (config : Config) (c : Channel) (u : World) : World :=
  after (c.request .post "" (body config)) u

/-- What a pairing request comes to: what is made of its reply, or why there is none. -/
def verdict (config : Config) (c : Channel) (u : World) : Except Fault (Option String) :=
  outcome (c.request .post "" (body config)) u >>= judge

/-- The world after a pause, in which the request is made again. -/
def again (config : Config) (c : Channel) (u : World) : World :=
  after (Act.wait config.pairingInterval) (answered config c u)

/-- The world in which a turn begins, when all turns before it are refused. -/
def turn (config : Config) (c : Channel) (u : World) (n : Nat) : World := (again config c)^[n] u

/-- A pairing request is refused because the link button is not pressed. -/
def Refused (config : Config) (c : Channel) (u : World) : Prop :=
  ∃ reply, outcome (c.request .post "" (body config)) u = .ok reply ∧ Unpressed reply

/-- The refusals have lasted for the timeout when the request that is made in `u` is answered. -/
def Late (config : Config) (c : Channel) (started : Instant) (u : World) : Prop :=
  config.pairingTimeout.hasPassed ((answered config c u).now - started) = true

instance (config : Config) (c : Channel) (started : Instant) (u : World) :
    Decidable (Late config c started u) :=
  inferInstanceAs (Decidable (_ = true))

variable {config : Config} {c : Channel} {started : Instant} {u : World}

theorem turn_succ (n : Nat) : turn config c u (n + 1) = turn config c (again config c u) n := rfl

theorem turn_succ' (n : Nat) : turn config c u (n + 1) = again config c (turn config c u n) :=
  Function.iterate_succ_apply' ..

theorem verdict_eq_ok_iff {found : Option String} :
    verdict config c u = .ok found ↔
      ∃ reply, outcome (c.request .post "" (body config)) u = .ok reply ∧
        judge reply = .ok found := by
  unfold verdict
  cases outcome (c.request .post "" (body config)) u <;> simp [bind, Except.bind]

theorem verdict_eq_ok_none_iff : verdict config c u = .ok none ↔ Refused config c u := by
  simp only [verdict_eq_ok_iff, judge_eq_ok_none_iff, Refused]

theorem verdict_eq_ok_some_iff {username : String} :
    verdict config c u = .ok (some username) ↔
      ∃ reply, outcome (c.request .post "" (body config)) u = .ok reply ∧
        Registers reply username := by
  simp only [verdict_eq_ok_iff, judge_eq_ok_some_iff]

/-- How asking ends with the turn that begins in `u`. -/
inductive Ends (config : Config) (c : Channel) (started : Instant) (u : World) :
    Except Fault Ending → Prop
  | failed {e : Fault} (h : verdict config c u = .error e) : Ends config c started u (.error e)
  | registered {username : String} (h : verdict config c u = .ok (some username)) :
      Ends config c started u (.ok (.user username))
  | timedOut (h : Refused config c u) (hlate : Late config c started u) :
      Ends config c started u (.ok .timeout)
  | endless (h : Refused config c u) (hlate : ¬ Late config c started u)
      (hinterval : config.pairingInterval = .never) : Ends config c started u (.error .timeOverflow)

section Ends

variable {result : Except Fault Ending}

/-! What the last request comes to determines how asking ends. -/

theorem Ends.of_error (h : Ends config c started u result) {e : Fault}
    (hverdict : verdict config c u = .error e) : result = .error e := by
  cases h with
  | failed h =>
    cases h.symm.trans hverdict
    rfl
  | registered h => nomatch h.symm.trans hverdict
  | timedOut h _ | endless h _ _ => nomatch (verdict_eq_ok_none_iff.mpr h).symm.trans hverdict

theorem Ends.of_some (h : Ends config c started u result) {username : String}
    (hverdict : verdict config c u = .ok (some username)) : result = .ok (.user username) := by
  cases h with
  | failed h => nomatch h.symm.trans hverdict
  | registered h =>
    cases h.symm.trans hverdict
    rfl
  | timedOut h _ | endless h _ _ => nomatch (verdict_eq_ok_none_iff.mpr h).symm.trans hverdict

theorem Ends.of_refused (h : Ends config c started u result) (hrefused : Refused config c u)
    (hinterval : config.pairingInterval ≠ .never) :
    Late config c started u ∧ result = .ok .timeout := by
  cases h with
  | failed h | registered h => nomatch (verdict_eq_ok_none_iff.mpr hrefused).symm.trans h
  | timedOut _ hlate => exact ⟨hlate, rfl⟩
  | endless _ _ hnever => exact absurd hnever hinterval

end Ends

/-- A turn that does not end asking. -/
structure Goes (config : Config) (c : Channel) (started : Instant) (u : World) : Prop where
  refused : Refused config c u
  early : ¬ Late config c started u
  interval : config.pairingInterval ≠ .never

/-! ## Asking in turns -/

theorem exists_reply_of_verdict {found : Option String} (h : verdict config c u = .ok found) :
    ∃ reply, c.request .post "" (body config) u = .ok reply (answered config c u) ∧
      Act.ofExcept (judge reply) = pure found := by
  obtain ⟨reply, houtcome, hjudge⟩ := verdict_eq_ok_iff.mp h
  cases hrequest : c.request .post "" (body config) u with
  | error e v =>
    rw [outcome_of_error hrequest] at houtcome
    nomatch houtcome
  | ok r v =>
    rw [outcome_of_ok hrequest] at houtcome
    cases houtcome
    refine ⟨reply, ?_, by rw [hjudge]; rfl⟩
    rw [answered, after_of_ok hrequest]

theorem ask_of_error (started : Instant) (attempts : Nat) {e : Fault}
    (h : verdict config c u = .error e) :
    ask config c started (attempts + 1) u = .error e (answered config c u) := by
  unfold verdict at h
  unfold answered
  cases hrequest : c.request .post "" (body config) u with
  | error e' v =>
    rw [outcome_of_error hrequest] at h
    cases h
    rw [after_of_error hrequest]
    simp only [ask, bind, EStateM.bind, hrequest]
  | ok reply v =>
    rw [outcome_of_ok hrequest] at h
    change judge reply = .error e at h
    rw [after_of_ok hrequest, ask, bind_eq_of_ok hrequest, h]
    rfl

theorem ask_of_some (started : Instant) (attempts : Nat) {username : String}
    (h : verdict config c u = .ok (some username)) :
    ask config c started (attempts + 1) u = .ok (.user username) (answered config c u) := by
  obtain ⟨reply, hrequest, hjudge⟩ := exists_reply_of_verdict h
  rw [ask, bind_eq_of_ok hrequest, hjudge]
  rfl

theorem ask_of_refused (started : Instant) (attempts : Nat) (h : Refused config c u) :
    ask config c started (attempts + 1) u =
      (if Late config c started u then pure .timeout
        else Act.wait config.pairingInterval >>= fun _ => ask config c started attempts)
        (answered config c u) := by
  obtain ⟨reply, hrequest, hjudge⟩ := exists_reply_of_verdict (verdict_eq_ok_none_iff.mpr h)
  rw [ask, bind_eq_of_ok hrequest, hjudge]
  rfl

/-- One turn: asking ends with it, or goes on with the next one. -/
theorem ask_succ (config : Config) (c : Channel) (started : Instant) (attempts : Nat) (u : World) :
    (Ends config c started u (outcome (ask config c started (attempts + 1)) u) ∧
        after (ask config c started (attempts + 1)) u = answered config c u) ∨
      (Goes config c started u ∧
        ask config c started (attempts + 1) u =
          ask config c started attempts (again config c u)) := by
  cases hverdict : verdict config c u with
  | error e =>
    have hask := ask_of_error started attempts hverdict
    rw [outcome_of_error hask, after_of_error hask]
    exact .inl ⟨.failed hverdict, rfl⟩
  | ok found =>
    cases found with
    | some username =>
      have hask := ask_of_some started attempts hverdict
      rw [outcome_of_ok hask, after_of_ok hask]
      exact .inl ⟨.registered hverdict, rfl⟩
    | none =>
      have hrefused := verdict_eq_ok_none_iff.mp hverdict
      have hask := ask_of_refused started attempts hrefused
      by_cases hlate : Late config c started u
      · rw [if_pos hlate] at hask
        have hask' : ask config c started (attempts + 1) u = .ok .timeout (answered config c u) := hask
        rw [outcome_of_ok hask', after_of_ok hask']
        exact .inl ⟨.timedOut hrefused hlate, rfl⟩
      · rw [if_neg hlate] at hask
        cases hinterval : config.pairingInterval with
        | never =>
          have hask' : ask config c started (attempts + 1) u =
              .error .timeOverflow (answered config c u) := by
            rw [hask, hinterval]
            rfl
          rw [outcome_of_error hask', after_of_error hask']
          exact .inl ⟨.endless hrefused hlate hinterval, rfl⟩
        | millis i =>
          have hwait : Act.wait config.pairingInterval (answered config c u) =
              .ok () (again config c u) := by
            rw [again, hinterval]
            rfl
          refine .inr ⟨⟨hrefused, hlate, by rw [hinterval]; nofun⟩, ?_⟩
          rw [hask, bind_eq_of_ok hwait]

/-- Asking is turns that go on, and then one that ends it, unless there are too few of them. -/
theorem exists_turn (config : Config) (c : Channel) (started : Instant) (attempts : Nat)
    (u : World) :
    ∃ n, (∀ k < n, Goes config c started (turn config c u k)) ∧
      ((n < attempts ∧
          Ends config c started (turn config c u n) (outcome (ask config c started attempts) u) ∧
          after (ask config c started attempts) u = answered config c (turn config c u n)) ∨
        (n = attempts ∧
          ask config c started attempts u = .ok .unfinished (turn config c u n))) := by
  -- on the number of requests that may still be made; the next turn begins in another world
  induction attempts generalizing u with
  | zero => exact ⟨0, nofun, .inr ⟨rfl, rfl⟩⟩
  | succ attempts ih =>
    rcases ask_succ config c started attempts u with hends | ⟨hgoes, hask⟩
    · exact ⟨0, nofun, .inl ⟨Nat.succ_pos _, hends⟩⟩
    · obtain ⟨n, hearlier, hlast⟩ := ih (again config c u)
      refine ⟨n + 1, fun k hk => ?_, ?_⟩
      · cases k with
        | zero => exact hgoes
        | succ k => exact hearlier k (Nat.lt_of_succ_lt_succ hk)
      · -- the turns after the first one are the turns from the next world on
        unfold outcome after at hlast ⊢
        rw [hask, turn_succ]
        refine hlast.imp (fun h => ⟨Nat.succ_lt_succ h.1, h.2⟩) fun h => ⟨by rw [h.1], h.2⟩

/-! ## What the turns leave alone -/

/-- The request that registers a new user. -/
def application (config : Config) (c : Channel) : Request := c.compose .post "" (body config)

theorem after_wait (d : Duration) (u : World) :
    ∃ now, after (Act.wait d) u = { u with now := now } := by
  cases d with
  | never => exact ⟨u.now, rfl⟩
  | millis n => exact ⟨u.now + n, rfl⟩

/-- A world may be left by requests for a new user: what was sent is those, and no cache differs. -/
structure Applies (config : Config) (c : Channel) (u v : World) : Prop where
  sent : ∃ sent, v.sent = u.sent ++ sent ∧ ∀ s ∈ sent, s.request = application config c
  caches : Channel.SameCaches u v

theorem Applies.refl (u : World) : Applies config c u u :=
  ⟨⟨[], (List.append_nil _).symm, nofun⟩, .refl u⟩

theorem Applies.trans {u v w : World} (h : Applies config c u v) (h' : Applies config c v w) :
    Applies config c u w := by
  obtain ⟨first, hfirst, hall⟩ := h.sent
  obtain ⟨second, hsecond, hall'⟩ := h'.sent
  refine ⟨⟨first ++ second, by rw [hsecond, hfirst, List.append_assoc], ?_⟩,
    h.caches.trans h'.caches⟩
  exact List.forall_mem_append.mpr ⟨hall, hall'⟩

theorem applies_answered (config : Config) (c : Channel) (u : World) :
    Applies config c u (answered config c u) := by
  obtain ⟨times, -, hsent⟩ := c.exists_times_of_request .post "" (body config) u
  refine ⟨⟨_, hsent, fun s hs => ?_⟩, c.sameCaches_request .post "" (body config) u⟩
  obtain ⟨time, -, rfl⟩ := List.mem_map.mp hs
  rfl

theorem applies_again (config : Config) (c : Channel) (u : World) :
    Applies config c u (again config c u) := by
  obtain ⟨now, hwait⟩ := after_wait config.pairingInterval (answered config c u)
  rw [again, hwait]
  have h := applies_answered config c u
  exact ⟨h.sent, h.caches.snapshots, h.caches.held⟩

theorem applies_turn (config : Config) (c : Channel) (u : World) (n : Nat) :
    Applies config c u (turn config c u n) := by
  induction n with
  | zero => exact .refl u
  | succ n ih =>
    rw [turn_succ']
    exact ih.trans (applies_again config c _)

/-- However asking ends, only requests for a new user have been sent. -/
theorem applies_ask (config : Config) (c : Channel) (started : Instant) (attempts : Nat)
    (u : World) : Applies config c u (after (ask config c started attempts) u) := by
  obtain ⟨n, -, ⟨-, -, hafter⟩ | ⟨-, hask⟩⟩ := exists_turn config c started attempts u
  · rw [hafter]
    exact (applies_turn config c u n).trans (applies_answered config c _)
  · rw [after_of_ok hask]
    exact applies_turn config c u n

/-! ## The time that the turns take -/

section Finite

variable {t i d : Nat}

/-- From one turn to the next, the instant at which the slot is claimed moves on by the pause and by
the delay of the channel, whichever is longer. -/
theorem sendTime_again (hi : config.pairingInterval = .millis i) (hd : c.minDelay = .millis d)
    (u : World) : c.sendTime u + max i d ≤ c.sendTime (again config c u) := by
  have hnow : c.sendTime u ≤ (answered config c u).now := Channel.sendTime_le_after_request hd ..
  have hslot : c.sendTime u + d ≤ (answered config c u).nextAllowed c.slot :=
    Channel.nextAllowed_after_request hd ..
  -- the pause moves the clock on and leaves the slot as it was
  have hpause : (answered config c u).now + i ≤ c.sendTime (again config c u) := by
    have hagain : (again config c u).now = (answered config c u).now + i := by
      rw [again, hi]
      rfl
    rw [← hagain]
    exact c.now_le_sendTime _
  have hfree : (answered config c u).nextAllowed c.slot ≤ c.sendTime (again config c u) := by
    have hagain : (again config c u).nextAllowed c.slot =
        (answered config c u).nextAllowed c.slot := by
      rw [again, hi]
      rfl
    rw [← hagain]
    exact c.nextAllowed_le_sendTime _
  rw [← Nat.add_max_add_left]
  exact Nat.max_le.mpr
    ⟨Nat.le_trans (Nat.add_le_add_right hnow i) hpause, Nat.le_trans hslot hfree⟩

theorem sendTime_turn (hi : config.pairingInterval = .millis i) (hd : c.minDelay = .millis d)
    (u : World) (n : Nat) :
    c.sendTime u + n * max i d ≤ c.sendTime (turn config c u n) := by
  induction n with
  | zero =>
    rw [Nat.zero_mul]
    exact Nat.le_refl _
  | succ n ih =>
    rw [turn_succ', Nat.succ_mul, ← Nat.add_assoc]
    exact Nat.le_trans (Nat.add_le_add_right ih _) (sendTime_again hi hd _)

theorem late_iff (ht : config.pairingTimeout = .millis t)
    (hstarted : started ≤ (answered config c u).now) :
    Late config c started u ↔ started + t ≤ (answered config c u).now := by
  rw [Late, ht, Duration.hasPassed, decide_eq_true_eq]
  exact Nat.le_sub_iff_add_le' hstarted

/-- A turn comes late enough for the pauses before it. -/
theorem answered_turn (hi : config.pairingInterval = .millis i) (hd : c.minDelay = .millis d)
    (u : World) (n : Nat) : u.now + n * max i d ≤ (answered config c (turn config c u n)).now :=
  calc u.now + n * max i d
    _ ≤ c.sendTime u + n * max i d := Nat.add_le_add_right (c.now_le_sendTime u) _
    _ ≤ c.sendTime (turn config c u n) := sendTime_turn hi hd u n
    _ ≤ (answered config c (turn config c u n)).now := Channel.sendTime_le_after_request hd ..

theorem late_turn_iff (ht : config.pairingTimeout = .millis t)
    (hi : config.pairingInterval = .millis i) (hd : c.minDelay = .millis d) (u : World) (n : Nat) :
    Late config c u.now (turn config c u n) ↔
      u.now + t ≤ (answered config c (turn config c u n)).now :=
  late_iff ht (Nat.le_trans (Nat.le_add_right ..) (answered_turn hi hd u n))

/-- A turn that goes on is answered before the timeout, so there are few of them. -/
theorem Goes.bound (ht : config.pairingTimeout = .millis t)
    (hi : config.pairingInterval = .millis i) (hd : c.minDelay = .millis d) {n : Nat}
    (h : Goes config c u.now (turn config c u n)) :
    (answered config c (turn config c u n)).now < u.now + t ∧ n * max i d < t := by
  have hearly : (answered config c (turn config c u n)).now < u.now + t :=
    Nat.not_le.mp fun hlate => h.early ((late_turn_iff ht hi hd u n).mpr hlate)
  exact ⟨hearly, Nat.lt_of_add_lt_add_left (Nat.lt_of_le_of_lt (answered_turn hi hd u n) hearly)⟩

/-- There are enough turns: the last of them would come after the timeout. -/
theorem exists_last_turn (ht : config.pairingTimeout = .millis t)
    (hi : config.pairingInterval = .millis i) (hd : c.minDelay = .millis d) (hM : 0 < max i d)
    (prepared : Nat) (u : World) :
    ∃ n, n ≤ (t + max i d - 1) / max i d ∧
      (∀ k < n, Goes config c u.now (turn config c u k)) ∧
      Ends config c u.now (turn config c u n)
        (outcome (ask config c u.now (enough config prepared)) u) ∧
      after (ask config c u.now (enough config prepared)) u =
        answered config c (turn config c u n) := by
  have henough : enough config prepared = prepared + t + 2 := by rw [enough, ht]
  obtain ⟨n, hgoes, hlast⟩ := exists_turn config c u.now (enough config prepared) u
  -- the turn before the last one was answered before the timeout
  have hbound : n ≤ (t + max i d - 1) / max i d := by
    cases n with
    | zero => exact Nat.zero_le _
    | succ n =>
      have hn := (Goes.bound ht hi hd (hgoes n (Nat.lt_succ_self n))).2
      rw [Nat.le_div_iff_mul_le hM, Nat.succ_mul]
      omega
  rcases hlast with ⟨-, hends, hafter⟩ | ⟨hn, -⟩
  · exact ⟨n, hbound, hgoes, hends, hafter⟩
  · -- that many turns would have taken longer than the timeout
    have hlate := (Goes.bound ht hi hd (hgoes (prepared + t + 1) (by omega))).2
    have hlong : prepared + t + 1 ≤ (prepared + t + 1) * max i d := Nat.le_mul_of_pos_right _ hM
    omega

end Finite

end Pairing

end LightBridge
