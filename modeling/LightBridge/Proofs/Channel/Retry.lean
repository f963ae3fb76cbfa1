import LightBridge.Proofs.Channel.Request

/-!
# Requests that are sent twice

A request goes out once more exactly when its first attempt failed as transient. The last attempt
alone decides the result, and what the bridge says in a body never makes a request go out again.
-/

namespace LightBridge

/-- The exchange failed in a way that allows one more attempt. -/
def Transient (outcome : Except Failure String) : Prop :=
  ∃ message, outcome = .error (.transient message)

/-- What a request makes of its last attempt. -/
inductive Concludes : Except Failure String → Except Fault Json → Prop
  | failed (failure : Failure) : Concludes (.error failure) (.error (.transport failure))
  | blank {body : String} (h : Text.isAllBlank body = true) :
      Concludes (.ok body) (.error (.malformed .emptyBody))
  | unreadable {body : String} (h : Text.isAllBlank body = false) (hread : Json.read? body = none) :
      Concludes (.ok body) (.error (.malformed .notJson))
  | read {body : String} {value : Json} (h : Text.isAllBlank body = false)
      (hread : Json.read? body = some value) : Concludes (.ok body) (.ok value)

theorem concludes_read (outcome : Except Failure String) :
    Concludes outcome (outcome.mapError .transport >>= Reply.read) := by
  cases outcome with
  | error failure => exact .failed failure
  | ok body =>
    change Concludes (.ok body) (Reply.read body)
    unfold Reply.read
    cases hblank : Text.isAllBlank body with
    | true => exact .blank hblank
    | false =>
      rw [if_neg Bool.false_ne_true]
      cases hread : Json.read? body with
      | none => exact .unreadable hblank hread
      | some value => exact .read hblank hread

namespace Failure

theorem isTransient_eq_true_iff {failure : Failure} :
    failure.isTransient = true ↔ ∃ message, failure = .transient message := by
  cases failure <;> simp [isTransient]

end Failure

namespace Channel

/-- A request is one attempt, or two. -/
theorem after_request_eq_or_eq (c : Channel) (method : Method) (path : String) (body : Json)
    (w : World) :
    let r := c.compose method path body
    after (c.request method path body) w = w.step (.attempt c r) ∨
      after (c.request method path body) w = (w.step (.attempt c r)).step (.attempt c r) := by
  intro r
  rw [after_request]
  exact (c.attempts_eq_one_or_two r w).imp (fun h => by rw [h]; rfl) fun h => by rw [h]; rfl

/-! ## What an attempt leaves alone -/

/-- Beside the clock and what was sent, only the slot and the transport of the channel may
differ. -/
structure Touches (c : Channel) (w w' : World) : Prop where
  slots : ∀ slot ≠ c.slot, w'.nextAllowed slot = w.nextAllowed slot
  transports : ∀ transport ≠ c.transport, w'.script transport = w.script transport
  caches : SameCaches w w'
  fresh : w'.fresh = w.fresh
  now : w.now ≤ w'.now

theorem Touches.trans {c : Channel} {w w' w'' : World} (h : Touches c w w')
    (h' : Touches c w' w'') : Touches c w w'' :=
  ⟨fun slot hne => (h'.slots slot hne).trans (h.slots slot hne),
    fun transport hne => (h'.transports transport hne).trans (h.transports transport hne),
    h.caches.trans h'.caches, h'.fresh.trans h.fresh, Nat.le_trans h.now h'.now⟩

theorem touches_attempt (c : Channel) (r : Request) (w : World) :
    Touches c w (w.step (.attempt c r)) := by
  have hcaches := sameCaches_attempt c r w
  have hnow := w.now_le_step (.attempt c r)
  cases hd : c.minDelay with
  | never =>
    rw [World.step, after_attempt_never hd] at hcaches hnow ⊢
    exact ⟨fun _ _ => rfl, fun _ _ => rfl, hcaches, rfl, hnow⟩
  | millis d =>
    rw [World.step, after_attempt hd] at hcaches hnow ⊢
    refine ⟨fun slot hne => ?_, fun transport hne => ?_, hcaches, rfl, hnow⟩
    · exact World.nextAllowed_of_slots_set_of_ne _ _ _ rfl hne
    · exact congrArg (Option.getD · default) (Table.get?_set_of_ne _ _ hne)

theorem touches_request (c : Channel) (method : Method) (path : String) (body : Json) (w : World) :
    Touches c w (after (c.request method path body) w) := by
  rcases c.after_request_eq_or_eq method path body w with hone | htwo
  · rw [hone]
    exact touches_attempt c _ w
  · rw [htwo]
    exact (touches_attempt c _ w).trans (touches_attempt c _ _)

/-! ## Which attempt decides -/

section Finite

variable {c : Channel} {d : Nat}

theorem outcome_deliver_of_transient (hd : c.minDelay = .millis d) {r : Request} {w : World}
    (h : Transient (c.reply r w)) :
    outcome (c.deliver r) w =
      (c.reply r (w.step (.attempt c r))).mapError .transport := by
  obtain ⟨message, hreply⟩ := h
  unfold deliver
  rw [outcome_bind_of_ok (attempt_eq hd r w), hreply]
  -- the second attempt begins in the world that the first one has left
  change outcome (c.attempt r >>= _) _ = _
  rw [outcome_bind_of_ok (attempt_eq hd r _)]
  cases c.reply r (w.step (.attempt c r)) <;> rfl

theorem outcome_deliver_of_not_transient (hd : c.minDelay = .millis d) {r : Request} {w : World}
    (h : ¬ Transient (c.reply r w)) :
    outcome (c.deliver r) w = (c.reply r w).mapError .transport := by
  unfold deliver
  rw [outcome_bind_of_ok (attempt_eq hd r w)]
  cases hreply : c.reply r w with
  | ok body => rfl
  | error failure =>
    have hlast : ¬ failure.isTransient = true := fun htransient => by
      obtain ⟨message, rfl⟩ := Failure.isTransient_eq_true_iff.mp htransient
      exact h ⟨message, hreply⟩
    dsimp only
    rw [if_neg hlast]
    rfl

theorem attempts_of_transient (hd : c.minDelay = .millis d) {r : Request} {w : World}
    (h : Transient (c.reply r w)) : c.attempts r w = 2 := by
  obtain ⟨message, hreply⟩ := h
  simp only [attempts, attempt_eq hd, hreply, Failure.isTransient, if_true]

theorem attempts_of_not_transient (hd : c.minDelay = .millis d) {r : Request} {w : World}
    (h : ¬ Transient (c.reply r w)) : c.attempts r w = 1 := by
  simp only [attempts, attempt_eq hd]
  cases hreply : c.reply r w with
  | ok body => rfl
  | error failure =>
    refine if_neg fun htransient => h ?_
    obtain ⟨message, rfl⟩ := Failure.isTransient_eq_true_iff.mp htransient
    exact ⟨message, hreply⟩

/-- The result is made of the last attempt, whatever the first one was. -/
theorem concludes_of_outcome_deliver {method : Method} {path : String} {body : Json} {w : World}
    {last : Except Failure String}
    (h : outcome (c.deliver (c.compose method path body)) w = last.mapError .transport) :
    Concludes last (outcome (c.request method path body) w) := by
  rw [outcome_request, h]
  exact concludes_read last

theorem sent_attempt (hd : c.minDelay = .millis d) (r : Request) (w : World) :
    (w.step (.attempt c r)).sent = w.sent ++ [⟨c.sendTime w, r⟩] := by
  rw [World.step, after_attempt hd]

theorem nextAllowed_attempt (hd : c.minDelay = .millis d) (r : Request) (w : World) :
    (w.step (.attempt c r)).nextAllowed c.slot = c.sendTime w + d := by
  rw [World.step, after_attempt hd]
  exact World.nextAllowed_of_slots_set _ _ _ _ rfl

/-- After a request the slot is free no earlier than the delay after its first attempt. -/
theorem nextAllowed_after_request (hd : c.minDelay = .millis d) (method : Method) (path : String)
    (body : Json) (w : World) :
    c.sendTime w + d ≤ (after (c.request method path body) w).nextAllowed c.slot := by
  have hfirst := nextAllowed_attempt hd (c.compose method path body) w
  rcases c.after_request_eq_or_eq method path body w with hone | htwo
  · rw [hone]
    exact Nat.le_of_eq hfirst.symm
  · rw [htwo, nextAllowed_attempt hd, ← hfirst]
    exact Nat.le_add_right_of_le (c.nextAllowed_le_sendTime _)

theorem sendTime_le_after_request (hd : c.minDelay = .millis d) (method : Method) (path : String)
    (body : Json) (w : World) :
    c.sendTime w ≤ (after (c.request method path body) w).now := by
  have hfirst := sendTime_le_now_attempt hd (c.compose method path body) w
  rcases c.after_request_eq_or_eq method path body w with hone | htwo
  · rw [hone]
    exact hfirst
  · rw [htwo]
    exact Nat.le_trans hfirst (World.now_le_step _ _)

end Finite

/-- **Retrying.** A request goes out once, and once more exactly when its first attempt failed as
transient. The second attempt is the same request, sent when the slot is free again; the last
attempt alone decides the result, and only the clock, the slot and the transport of the channel
notice. Where the delay never ends nothing goes out. -/
theorem resent_iff_transient (c : Channel) (method : Method) (path : String) (body : Json)
    (w : World) :
    let r := c.compose method path body
    let again := w.step (.attempt c r)
    let done := after (c.request method path body) w
    let result := outcome (c.request method path body) w
    (∀ d, c.minDelay = .millis d →
      (Transient (c.reply r w) →
        done.sent = w.sent ++ [⟨c.sendTime w, r⟩, ⟨c.sendTime again, r⟩] ∧
          c.sendTime w + d ≤ c.sendTime again ∧
          done.nextAllowed c.slot = c.sendTime again + d ∧ Concludes (c.reply r again) result) ∧
      (¬ Transient (c.reply r w) →
        done.sent = w.sent ++ [⟨c.sendTime w, r⟩] ∧
          done.nextAllowed c.slot = c.sendTime w + d ∧ Concludes (c.reply r w) result)) ∧
    (c.minDelay = .never → done.sent = w.sent ∧ result = .error .timeOverflow) ∧
    Touches c w done := by
  intro r again done result
  have hplay : done = w.play (List.replicate (c.attempts r w) (.attempt c r)) :=
    after_request c method path body w
  refine ⟨fun d hd => ⟨fun htransient => ?_, fun hlast => ?_⟩, fun hd => ?_,
    touches_request c method path body w⟩
  · have hdone : done = again.step (.attempt c r) := by
      rw [hplay, attempts_of_transient hd htransient]
      rfl
    have hfree : again.nextAllowed c.slot = c.sendTime w + d := nextAllowed_attempt hd r w
    refine ⟨?_, ?_, ?_, concludes_of_outcome_deliver (outcome_deliver_of_transient hd htransient)⟩
    · rw [hdone, sent_attempt hd, sent_attempt hd, List.append_assoc, List.singleton_append]
    · rw [← hfree]
      exact c.nextAllowed_le_sendTime again
    · rw [hdone, nextAllowed_attempt hd]
  · have hdone : done = again := by
      rw [hplay, attempts_of_not_transient hd hlast]
      rfl
    refine ⟨?_, ?_, concludes_of_outcome_deliver (outcome_deliver_of_not_transient hd hlast)⟩
    · rw [hdone, sent_attempt hd]
    · rw [hdone, nextAllowed_attempt hd]
  · have hrequest : c.request method path body w =
        .error .timeOverflow { w with now := c.sendTime w } :=
      request_of_never hd method path body w
    refine ⟨?_, outcome_of_error hrequest⟩
    rw [show done = _ from after_of_error hrequest]

/-- A connection that is reset once, and a bridge that then answers with blanks. -/
theorem resent_then_blank :
    let c : Channel := ⟨"10.0.0.2", 80, "a", .millis 100, 0, 0⟩
    let script := Script.ofLines 30
      [.once .get "/api/a" (.error (.transient "connection reset")), .once .get "/api/a" (.ok " ")]
    let w := { World.start with transports := .set .empty 0 script }
    let r := c.compose .get "" (.object [])
    (after (c.request .get "" (.object [])) w).sent = [⟨0, r⟩, ⟨100, r⟩] ∧
      outcome (c.request .get "" (.object [])) w = .error (.malformed .emptyBody) := by
  intro c script w r
  have htransient : Transient (c.reply r w) := ⟨"connection reset", rfl⟩
  have hblank : c.reply r (w.step (.attempt c r)) = .ok " " := rfl
  obtain ⟨hsent, -, -, hresult⟩ :=
    ((resent_iff_transient c .get "" (.object []) w).1 100 rfl).1 htransient
  refine ⟨hsent.trans rfl, ?_⟩
  rw [hblank] at hresult
  generalize outcome (c.request .get "" (.object [])) w = result at hresult
  cases hresult with
  | blank => rfl
  | unreadable h => exact absurd h (by decide)
  | read h => exact absurd h (by decide)

end Channel

end LightBridge
