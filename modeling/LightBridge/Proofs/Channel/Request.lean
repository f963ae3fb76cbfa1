import LightBridge.Proofs.Event

/-!
# Requests as attempts

A request does nothing to a world but try: once, and once more when the first attempt failed as
transient. What it then makes of the reply leaves the world alone.
-/

namespace LightBridge

variable {ε σ α β : Type}

theorem after_pure (a : α) (s : σ) : after (pure a : EStateM ε σ α) s = s := rfl

theorem after_throw (e : ε) (s : σ) : after (throw e : EStateM ε σ α) s = s := rfl

theorem after_bind_of_ok {x : EStateM ε σ α} {f : α → EStateM ε σ β} {s s' : σ} {a : α}
    (h : x s = .ok a s') : after (x >>= f) s = after (f a) s' := by
  simp only [after, bind, EStateM.bind, h]

theorem after_bind_of_error {x : EStateM ε σ α} {f : α → EStateM ε σ β} {s s' : σ} {e : ε}
    (h : x s = .error e s') : after (x >>= f) s = s' := by
  simp only [after, bind, EStateM.bind, h]

/-- What changes nothing may be left off at the end. -/
theorem after_bind_of_still {x : EStateM ε σ α} {f : α → EStateM ε σ β}
    (hf : ∀ a s, after (f a) s = s) (s : σ) : after (x >>= f) s = after x s := by
  cases h : x s with
  | ok a s' => rw [after_bind_of_ok h, hf]; simp only [after, h]
  | error e s' => rw [after_bind_of_error h]; simp only [after, h]

theorem bind_eq_of_ok {x : EStateM ε σ α} {f : α → EStateM ε σ β} {s s' : σ} {a : α}
    (h : x s = .ok a s') : (x >>= f) s = f a s' := by
  simp only [bind, EStateM.bind, h]

theorem map_eq_bind (f : α → β) (x : EStateM ε σ α) : f <$> x = x >>= fun a => pure (f a) := by
  funext s
  simp only [Functor.map, EStateM.map, bind, EStateM.bind, pure, EStateM.pure]

theorem exists_of_bind_ok {x : EStateM ε σ α} {f : α → EStateM ε σ β} {s s'' : σ} {b : β}
    (h : (x >>= f) s = .ok b s'') : ∃ a s', x s = .ok a s' ∧ f a s' = .ok b s'' := by
  cases hx : x s with
  | ok a s' => exact ⟨a, s', rfl, by simpa only [bind, EStateM.bind, hx] using h⟩
  | error e s' => simp only [bind, EStateM.bind, hx, reduceCtorEq] at h

theorem after_of_ok {x : EStateM ε σ α} {s s' : σ} {a : α} (h : x s = .ok a s') :
    after x s = s' := by
  simp only [after, h]

theorem after_of_error {x : EStateM ε σ α} {s s' : σ} {e : ε} (h : x s = .error e s') :
    after x s = s' := by
  simp only [after, h]

theorem outcome_of_ok {x : EStateM ε σ α} {s s' : σ} {a : α} (h : x s = .ok a s') :
    outcome x s = .ok a := by
  simp only [outcome, h]

theorem outcome_of_error {x : EStateM ε σ α} {s s' : σ} {e : ε} (h : x s = .error e s') :
    outcome x s = .error e := by
  simp only [outcome, h]

theorem outcome_bind_of_ok {x : EStateM ε σ α} {f : α → EStateM ε σ β} {s s' : σ} {a : α}
    (h : x s = .ok a s') : outcome (x >>= f) s = outcome (f a) s' := by
  simp only [outcome, bind, EStateM.bind, h]

theorem eq_ok_of_toOption {x : Except ε α} {a : α} (h : x.toOption = some a) : x = .ok a := by
  cases x with
  | error e => nomatch h
  | ok b =>
    cases h
    rfl

theorem after_map (f : α → β) (x : EStateM ε σ α) (s : σ) : after (f <$> x) s = after x s := by
  simp only [after, Functor.map, EStateM.map]
  cases x s <;> rfl

theorem after_ofExcept (r : Except Fault α) (w : World) : after (Act.ofExcept r) w = w := by
  cases r <;> rfl

theorem outcome_ofExcept (r : Except Fault α) (w : World) : outcome (Act.ofExcept r) w = r := by
  cases r <;> rfl

namespace Channel

/-- What the transport answers to a request that is sent next. -/
def reply (c : Channel) (r : Request) (w : World) : Except Failure String :=
  ((w.script c.transport).answer r.method r.uri).1.outcome

/-- With a finite delay an attempt always goes out, and ends with what the transport answers. -/
theorem attempt_eq {c : Channel} {d : Nat} (hd : c.minDelay = .millis d) (r : Request)
    (w : World) : c.attempt r w = .ok (c.reply r w) (w.step (.attempt c r)) := by
  unfold World.step after attempt claimSlot
  simp only [bind, EStateM.bind, hd, Duration.after?_millis]
  rfl

/-- The number of attempts that a request makes: two when the first one fails as transient. -/
def attempts (c : Channel) (r : Request) (w : World) : Nat :=
  match c.attempt r w with
  | .ok (.error failure) _ => if failure.isTransient then 2 else 1
  | _ => 1

theorem attempts_eq_one_or_two (c : Channel) (r : Request) (w : World) :
    c.attempts r w = 1 ∨ c.attempts r w = 2 := by
  unfold attempts
  split
  · split
    · exact .inr rfl
    · exact .inl rfl
  · exact .inl rfl

/-- Delivering a request is attempting it, as often as `attempts` says. -/
theorem after_deliver (c : Channel) (r : Request) (w : World) :
    after (c.deliver r) w = w.play (List.replicate (c.attempts r w) (.attempt c r)) := by
  have hstep : w.step (.attempt c r) = after (c.attempt r) w := rfl
  unfold deliver attempts
  cases h : c.attempt r w with
  | error e w' =>
    -- an endless delay: there is no second attempt
    rw [after_bind_of_error h, List.replicate_one, World.play_cons, World.play_nil, hstep,
      after_of_error h]
  | ok outcome w' =>
    rw [after_bind_of_ok h]
    cases outcome with
    | ok body =>
      rw [after_pure, List.replicate_one, World.play_cons, World.play_nil, hstep, after_of_ok h]
    | error failure =>
      dsimp only
      cases ht : failure.isTransient with
      | false =>
        rw [if_neg Bool.false_ne_true, after_throw, if_neg Bool.false_ne_true, List.replicate_one,
          World.play_cons, World.play_nil, hstep, after_of_ok h]
      | true =>
        -- what is made of the second outcome changes nothing
        rw [if_pos rfl, if_pos rfl, after_bind_of_still (by rintro (_ | _) <;> intro <;> rfl)]
        change _ = (w.step (.attempt c r)).step (.attempt c r)
        rw [hstep, after_of_ok h]
        rfl

theorem after_request (c : Channel) (method : Method) (path : String) (body : Json) (w : World) :
    after (c.request method path body) w =
      w.play (List.replicate (c.attempts (c.compose method path body) w)
        (.attempt c (c.compose method path body))) := by
  unfold request
  rw [after_bind_of_still fun reply s => after_ofExcept (Reply.read reply) s, after_deliver]

theorem outcome_request (c : Channel) (method : Method) (path : String) (body : Json) (w : World) :
    outcome (c.request method path body) w =
      outcome (c.deliver (c.compose method path body)) w >>= Reply.read := by
  unfold request outcome
  simp only [bind, EStateM.bind, Except.bind]
  cases c.deliver (c.compose method path body) w with
  | error e u => rfl
  | ok reply u => exact outcome_ofExcept (Reply.read reply) u

/-- Where the delay never ends the slot is waited for, and nothing goes out. -/
theorem request_of_never {c : Channel} (hd : c.minDelay = .never) (method : Method) (path : String)
    (body : Json) (w : World) :
    c.request method path body w = .error .timeOverflow { w with now := c.sendTime w } := by
  unfold request deliver attempt claimSlot
  simp only [bind, EStateM.bind, hd, Duration.after?_never]
  rfl

/-! ## What goes out -/

theorem sent_attempts (c : Channel) (r : Request) (n : Nat) (w : World) :
    ∃ times : List Instant, (∀ d, c.minDelay = .millis d → times.length = n) ∧
      (w.play (List.replicate n (.attempt c r))).sent = w.sent ++ times.map (⟨·, r⟩) := by
  induction n generalizing w with
  | zero => exact ⟨[], fun _ _ => rfl, (List.append_nil _).symm⟩
  | succ n ih =>
    obtain ⟨times, hlength, hsent⟩ := ih (w.step (.attempt c r))
    rw [List.replicate_succ, World.play_cons, hsent]
    cases hd : c.minDelay with
    | never =>
      refine ⟨times, nofun, ?_⟩
      rw [World.step, after_attempt_never hd]
    | millis d =>
      refine ⟨c.sendTime w :: times, fun d' hd' => ?_, ?_⟩
      · rw [List.length_cons, hlength d' (hd.trans hd')]
      · rw [World.step, after_attempt hd, List.append_assoc]
        rfl

/-- A request is sent at some times, and nothing else is: with a finite delay, once for each
attempt. -/
theorem exists_times_of_request (c : Channel) (method : Method) (path : String) (body : Json)
    (w : World) :
    ∃ times : List Instant,
      (∀ d, c.minDelay = .millis d →
        times.length = c.attempts (c.compose method path body) w) ∧
      (after (c.request method path body) w).sent =
        w.sent ++ times.map (⟨·, c.compose method path body⟩) := by
  rw [after_request]
  exact c.sent_attempts ..

/-- With a finite delay a request goes out, once or twice, and nothing else does. -/
theorem sent_of_request {c : Channel} (hd : c.minDelay ≠ .never) (method : Method) (path : String)
    (body : Json) (w : World) :
    ∃ sent, sent ≠ [] ∧ (after (c.request method path body) w).sent = w.sent ++ sent ∧
      ∀ s ∈ sent, s.request = c.compose method path body := by
  obtain ⟨times, hlength, hsent⟩ := c.exists_times_of_request method path body w
  refine ⟨_, ?_, hsent, fun s hs => ?_⟩
  · cases h : c.minDelay with
    | never => exact absurd h hd
    | millis d =>
      intro hnil
      have hnone := hlength d h
      rw [List.map_eq_nil_iff.mp hnil] at hnone
      rcases c.attempts_eq_one_or_two (c.compose method path body) w with hone | htwo
      · cases hnone.trans hone
      · cases hnone.trans htwo
  · obtain ⟨time, -, rfl⟩ := List.mem_map.mp hs
    rfl

/-! ## What is cached meanwhile -/

/-- What the roots hold, and which caches are held, stays as it is. -/
structure SameCaches (w w' : World) : Prop where
  snapshots : w'.snapshots = w.snapshots
  held : w'.held = w.held

theorem SameCaches.refl (w : World) : SameCaches w w := ⟨rfl, rfl⟩

theorem SameCaches.trans {w w' w'' : World} (h : SameCaches w w') (h' : SameCaches w' w'') :
    SameCaches w w'' :=
  ⟨h'.snapshots.trans h.snapshots, h'.held.trans h.held⟩

theorem sameCaches_attempt (c : Channel) (r : Request) (w : World) :
    SameCaches w (w.step (.attempt c r)) := by
  cases hd : c.minDelay with
  | millis d =>
    rw [World.step, after_attempt hd]
    exact ⟨rfl, rfl⟩
  | never =>
    rw [World.step, after_attempt_never hd]
    exact ⟨rfl, rfl⟩

theorem sameCaches_request (c : Channel) (method : Method) (path : String) (body : Json)
    (w : World) : SameCaches w (after (c.request method path body) w) := by
  rw [after_request]
  generalize c.attempts (c.compose method path body) w = n
  induction n generalizing w with
  | zero => exact SameCaches.refl w
  | succ n ih =>
    rw [List.replicate_succ, World.play_cons]
    exact (sameCaches_attempt c _ w).trans (ih _)

end Channel

theorem Channel.sameCaches_of_request {c : Channel} {method : Method} {path : String} {body : Json}
    {w u : World} {reply : Json} (h : c.request method path body w = .ok reply u) :
    Channel.SameCaches w u := by
  rw [← after_of_ok h]
  exact c.sameCaches_request method path body w

theorem World.snapshots_step {root : NodeId} {e : Event} (h : e.Spares root) (w : World) :
    (w.step e).snapshots.get? root = w.snapshots.get? root := by
  cases e with
  | attempt c r => rw [(Channel.sameCaches_attempt c r w).snapshots]
  | store node reply => exact Table.get?_set_of_ne _ _ (Ne.symm h)
  | patch node value =>
    have hne : root ≠ node := Ne.symm h
    simp only [World.step]
    cases w.snapshots.get? node with
    | none => rfl
    | some s => exact Table.get?_set_of_ne _ _ hne
  | _ => rfl

namespace Channel

/-! ## Requests that succeed -/

theorem sent_of_attempt_ok {c : Channel} {r : Request} {w u : World}
    {result : Except Failure String} (h : c.attempt r w = .ok result u) :
    u.sent = w.sent ++ [⟨c.sendTime w, r⟩] := by
  cases hd : c.minDelay with
  | millis d => rw [← after_of_ok h, after_attempt hd]
  | never =>
    -- the slot is waited for without end, so no attempt goes out
    simp only [attempt, claimSlot, bind, EStateM.bind, hd, Duration.after?_never] at h
    nomatch h

/-- A reply is the reply to something that was sent. -/
theorem sent_ne_of_deliver_ok {c : Channel} {r : Request} {w u : World} {reply : String}
    (h : c.deliver r w = .ok reply u) : u.sent ≠ w.sent := by
  obtain ⟨result, v, hfirst, hrest⟩ := exists_of_bind_ok h
  have hv := sent_of_attempt_ok hfirst
  cases result with
  | ok body =>
    cases hrest
    simp [hv]
  | error failure =>
    dsimp only at hrest
    split at hrest
    · obtain ⟨result', u', hsecond, hlast⟩ := exists_of_bind_ok hrest
      have hu := sent_of_attempt_ok hsecond
      cases result' with
      | ok body =>
        cases hlast
        simp [hu, hv]
      | error failure' => nomatch hlast
    · nomatch hrest

theorem sent_ne_of_request_ok {c : Channel} {method : Method} {path : String} {body : Json}
    {w u : World} {reply : Json} (h : c.request method path body w = .ok reply u) :
    u.sent ≠ w.sent := by
  obtain ⟨text, v, hdeliver, hread⟩ := exists_of_bind_ok h
  have hsame : u = v := by rw [← after_of_ok hread, after_ofExcept]
  rw [hsame]
  exact sent_ne_of_deliver_ok hdeliver

theorem sent_ne_of_write_ok {c : Channel} {path : String} {fields : Fields} {w u : World}
    {acknowledged : Bool} (h : c.write path fields w = .ok acknowledged u) : u.sent ≠ w.sent := by
  obtain ⟨reply, v, hrequest, hvalidate⟩ := exists_of_bind_ok h
  have hlast : u = v := by rw [← after_of_ok hvalidate, after_ofExcept]
  rw [hlast]
  exact sent_ne_of_request_ok hrequest

/-- Checking the reply to a write leaves the world as the request left it. -/
theorem after_write (c : Channel) (path : String) (fields : Fields) (w : World) :
    after (c.write path fields) w = after (c.request .put path (.object fields)) w := by
  unfold write
  exact after_bind_of_still (fun reply s => after_ofExcept _ s) w

end Channel

end LightBridge
