import LightBridge.Proofs.Deed
import LightBridge.Session.Step

/-!
# Operations as sequences of deeds

`Plays view P I Q x` says what an operation can do: to the world behind its state it does what some
deeds do, each of which `P` admits in the world that it is done in, it keeps `I`, and what it
returns meets `Q`. This holds whether the operation succeeds or fails, and it is put together along
the operation: a sequence plays what its parts play.
-/

namespace LightBridge

variable {ε σ τ α β : Type}

/-- What an operation does to the world behind its state is what deeds admitted by `P` do; it keeps
`I`, and what it returns meets `Q`. -/
def Plays (view : σ → World) (P : World → Deed → Prop) (I : σ → Prop) (Q : α → Prop)
    (x : EStateM ε σ α) : Prop :=
  ∀ s, I s → ∃ deeds : List Deed, (view s).Follows P deeds ∧
    view (after x s) = (view s).enactAll deeds ∧ I (after x s) ∧ ∀ a s', x s = .ok a s' → Q a

/-- `Plays` for an operation on a world. -/
abbrev Act.Plays (P : World → Deed → Prop) (Q : α → Prop) (x : Act α) : Prop :=
  LightBridge.Plays id P (fun _ => True) Q x

/-- `Plays` for an operation on a world and a value that meets `I`. -/
abbrev PlaysOn (P : World → Deed → Prop) (I : σ → Prop) (Q : α → Prop)
    (x : EStateM ε (σ × World) α) : Prop :=
  Plays Prod.snd P (fun s => I s.1) Q x

namespace Plays

variable {view : σ → World} {P : World → Deed → Prop} {I : σ → Prop} {Q : α → Prop} {R : β → Prop}

/-- What an operation does is what events do, whenever the deeds consist of such events. -/
theorem exists_events {E : Event → Prop} {x : EStateM ε σ α} (hx : Plays view P I Q x)
    (hP : ∀ w d, P w d → ∀ e, d.Makes e → E e) {s : σ} (hs : I s) :
    ∃ events, (∀ e ∈ events, E e) ∧ view (after x s) = (view s).play events := by
  obtain ⟨deeds, hdeeds, hview, -, -⟩ := hx s hs
  obtain ⟨events, hplay, hevents⟩ := hdeeds.exists_events hP
  exact ⟨events, hevents, hview.trans hplay⟩

/-- Operations that leave the same state behind play the same. -/
theorem of_after_eq {x : EStateM ε σ α} {y : EStateM ε σ β} (hx : Plays view P I Q x)
    (h : ∀ s, after y s = after x s) : Plays view P I (fun _ => True) y := by
  intro s hs
  obtain ⟨deeds, hdeeds, hview, hI, -⟩ := hx s hs
  exact ⟨deeds, hdeeds, by rwa [h], by rwa [h], fun _ _ _ => trivial⟩

/-- An operation that changes nothing plays nothing. -/
theorem of_still {x : EStateM ε σ α} (hx : ∀ s, after x s = s)
    (hQ : ∀ s a s', I s → x s = .ok a s' → Q a) : Plays view P I Q x := by
  intro s hs
  exact ⟨[], trivial, by rw [hx]; rfl, by rwa [hx], fun a s' => hQ s a s' hs⟩

theorem pure (a : α) (h : Q a) : Plays view P I Q (pure a : EStateM ε σ α) :=
  of_still (fun _ => rfl) fun s b s' _ hb => by cases hb; exact h

theorem throw (e : ε) : Plays view P I Q (throw e : EStateM ε σ α) :=
  of_still (fun _ => rfl) fun s b s' _ hb => by cases hb

theorem bind {x : EStateM ε σ α} {f : α → EStateM ε σ β} (hx : Plays view P I Q x)
    (hf : ∀ a, Q a → Plays view P I R (f a)) : Plays view P I R (x >>= f) := by
  intro s hs
  obtain ⟨first, hfirst, hview, hI, hok⟩ := hx s hs
  cases h : x s with
  | error e s' =>
    -- the first part fails, and the second one is not reached
    rw [after_of_error h] at hview hI
    refine ⟨first, hfirst, by rwa [after_bind_of_error h], by rwa [after_bind_of_error h], ?_⟩
    intro b s'' hb
    simp only [Bind.bind, EStateM.bind, h, reduceCtorEq] at hb
  | ok a s' =>
    -- the second part starts where the first one ended, with a result that meets `Q`
    rw [after_of_ok h] at hview hI
    obtain ⟨second, hsecond, hview', hI', hok'⟩ := hf a (hok a s' h) s' hI
    refine ⟨first ++ second, ?_, ?_, by rwa [after_bind_of_ok h], ?_⟩
    · rw [World.follows_append, ← hview]
      exact ⟨hfirst, hsecond⟩
    · rw [after_bind_of_ok h, hview', hview, World.enactAll_append]
    · intro b s'' hb
      simp only [Bind.bind, EStateM.bind, h] at hb
      exact hok' b s'' hb

theorem map {f : α → β} {x : EStateM ε σ α} (hx : Plays view P I Q x) (hf : ∀ a, Q a → R (f a)) :
    Plays view P I R (f <$> x) := by
  rw [map_eq_bind]
  exact hx.bind fun a ha => Plays.pure (f a) (hf a ha)

/-- A sequence whose first part is of no interest. -/
theorem andThen {x : EStateM ε σ α} {y : EStateM ε σ β} (hx : Plays view P I Q x)
    (hy : Plays view P I R y) : Plays view P I R (x >>= fun _ => y) :=
  hx.bind fun _ _ => hy

end Plays

/-! ## Operations on a world -/

namespace Act

variable {P : World → Deed → Prop} {Q : α → Prop}

theorem plays_ofExcept (r : Except Fault α) (h : ∀ a, r = .ok a → Q a) :
    Act.Plays P Q (Act.ofExcept r) := by
  cases r with
  | ok a => exact .pure a (h a rfl)
  | error e => exact .throw e

/-- An operation that does what one deed does. -/
theorem plays_of_enact {x : Act α} (d : World → Deed) (hP : ∀ w, P w (d w))
    (hx : ∀ w, after x w = w.enact (d w)) (hQ : ∀ w a w', x w = .ok a w' → Q a) :
    Act.Plays P Q x :=
  fun w _ => ⟨[d w], ⟨hP w, trivial⟩, hx w, trivial, hQ w⟩

/-- An operation that does what one event does. -/
theorem plays_of_step {x : Act α} (e : World → Event) (hP : ∀ w, P w (.event (e w)))
    (hx : ∀ w, after x w = w.step (e w)) (hQ : ∀ w a w', x w = .ok a w' → Q a) :
    Act.Plays P Q x :=
  plays_of_enact (fun w => .event (e w)) hP hx hQ

/-- An operation with the faults that `forgiven` tells passed over. -/
def forgiving (forgiven : Fault → Bool) (x : Act Unit) : Act Unit := fun w =>
  match x w with
  | .ok () u => .ok () u
  | .error e u => if forgiven e then .ok () u else .error e u

variable {forgiven : Fault → Bool} {x : Act Unit} {w u : World}

theorem forgiving_of_ok (h : x w = .ok () u) : forgiving forgiven x w = .ok () u := by
  simp only [forgiving, h]

theorem forgiving_of_error {e : Fault} (h : x w = .error e u) :
    forgiving forgiven x w = if forgiven e then .ok () u else .error e u := by
  simp only [forgiving, h]

theorem after_forgiving (forgiven : Fault → Bool) (x : Act Unit) (w : World) :
    after (forgiving forgiven x) w = after x w := by
  cases h : x w with
  | ok _ u => rw [after_of_ok h, after_of_ok (forgiving_of_ok h)]
  | error e u =>
    have hends : forgiving forgiven x w = _ := forgiving_of_error h
    rw [after_of_error h]
    split at hends
    · exact after_of_ok hends
    · exact after_of_error hends

theorem plays_forgiving {Q : Unit → Prop} (hx : Act.Plays P Q x) :
    Act.Plays P (fun _ => True) (forgiving forgiven x) :=
  hx.of_after_eq (after_forgiving forgiven x)

theorem plays_wait (d : Duration) (hP : ∀ w n, P w (.event (.pass n))) :
    Act.Plays P (fun _ => True) (wait d) := by
  cases d with
  | millis n =>
    exact plays_of_step (fun _ => .pass n) (fun w => hP w n) (fun _ => rfl) fun _ _ _ _ => trivial
  | never => exact .of_still (fun _ => rfl) fun _ _ _ _ _ => trivial

theorem plays_now : Act.Plays P (fun _ => True) now :=
  .of_still (fun _ => rfl) fun _ _ _ _ _ => trivial

theorem plays_nextAllowed (slot : SlotId) : Act.Plays P (fun _ => True) (nextAllowed slot) :=
  .of_still (fun _ => rfl) fun _ _ _ _ _ => trivial

theorem plays_latency (transport : TransportId) : Act.Plays P (fun _ => True) (latency transport) :=
  .of_still (fun _ => rfl) fun _ _ _ _ _ => trivial

theorem plays_waiting (transport : TransportId) (method : Method) (uri : String) :
    Act.Plays P (fun _ => True) (waiting transport method uri) :=
  .of_still (fun _ => rfl) fun _ _ _ _ _ => trivial

theorem plays_addTransport (script : Script) (hP : ∀ w, P w (.event (.newTransport script))) :
    Act.Plays P (fun _ => True) (addTransport script) :=
  plays_of_step (fun _ => .newTransport script) hP (fun _ => rfl) fun _ _ _ _ => trivial

theorem plays_changeScript (transport : TransportId) (f : Script → Script)
    (hP : ∀ w script, P w (.event (.rescript transport script))) :
    Act.Plays P (fun _ => True) (changeScript transport f) :=
  plays_of_step (fun w => .rescript transport (f (w.script transport))) (fun w => hP w _)
    (fun _ => rfl) fun _ _ _ _ => trivial

end Act

namespace Channel

variable {P : World → Deed → Prop}

theorem follows_replicate {d : Deed} (hP : ∀ w, P w d) (n : Nat) (w : World) :
    w.Follows P (List.replicate n d) := by
  induction n generalizing w with
  | zero => trivial
  | succ n ih => exact ⟨hP w, ih _⟩

theorem plays_request (c : Channel) (method : Method) (path : String) (body : Json)
    (hP : ∀ w, P w (.event (.attempt c (c.compose method path body)))) :
    Act.Plays P (fun _ => True) (c.request method path body) := by
  intro w _
  let r := c.compose method path body
  refine ⟨(List.replicate (c.attempts r w) (.attempt c r)).map .event, ?_, ?_, trivial,
    fun _ _ _ => trivial⟩
  · rw [List.map_replicate]
    exact follows_replicate hP _ w
  · rw [World.enactAll_events]
    exact after_request c method path body w

theorem plays_write (c : Channel) (path : String) (fields : Fields)
    (hP : ∀ w, P w (.event (.attempt c (c.compose .put path (.object fields))))) :
    Act.Plays P (fun _ => True) (c.write path fields) :=
  (plays_request c .put path (.object fields) hP).bind fun _ _ =>
    Act.plays_ofExcept _ fun _ _ => trivial

/-- A request that reads nothing. -/
theorem plays_request_of_used {c : Channel} (hc : c.Used P) {method : Method}
    (hmethod : method ≠ .get) (path : String) (body : Json) :
    Act.Plays P (fun _ => True) (c.request method path body) :=
  plays_request c method path body fun w => hc w (c.compose method path body) hmethod

theorem plays_write_of_used {c : Channel} (hc : c.Used P) (path : String) (fields : Fields) :
    Act.Plays P (fun _ => True) (c.write path fields) :=
  plays_write c path fields fun w => hc w (c.compose .put path (.object fields)) nofun

end Channel

/-! ## Operations on a world and a value -/

section Lifts

variable {P : World → Deed → Prop} {Q : α → Prop} {I : σ → Prop} {J : τ → Prop}

theorem after_beside (x : Act α) (s : σ) (w : World) :
    after (x.beside σ) (s, w) = (s, after x w) := by
  cases h : x w <;> simp only [after, Act.beside, h]

theorem exists_of_beside_ok {x : Act α} {a : α} {s : σ} {w : World} {r : σ × World}
    (h : x.beside σ (s, w) = .ok a r) : ∃ w', x w = .ok a w' ∧ r = (s, w') := by
  cases hx : x w with
  | ok b w' =>
    simp only [Act.beside, hx] at h
    cases h
    exact ⟨w', rfl, rfl⟩
  | error e w' => simp only [Act.beside, hx, reduceCtorEq] at h

theorem exists_of_lift_ok {x : Act α} {a : α} {s : σ} {w : World} {r : σ × World}
    (h : (liftM x : ActOn σ α) (s, w) = .ok a r) : ∃ w', x w = .ok a w' ∧ r = (s, w') :=
  exists_of_beside_ok h

theorem PlaysOn.beside {x : Act α} (hx : Act.Plays P Q x) : PlaysOn P I Q (x.beside σ) := by
  rintro ⟨s, w⟩ hs
  obtain ⟨deeds, hdeeds, hview, -, hok⟩ := hx w trivial
  refine ⟨deeds, hdeeds, by rw [after_beside]; exact hview, by rw [after_beside]; exact hs, ?_⟩
  intro a s' ha
  obtain ⟨w', hrun, -⟩ := exists_of_beside_ok ha
  exact hok a w' hrun

theorem PlaysOn.lift {x : Act α} (hx : Act.Plays P Q x) :
    PlaysOn P I Q (liftM x : ActOn σ α) := PlaysOn.beside hx

theorem lift_eq_of_ok {x : Act α} {a : α} {s : σ} {w w' : World} (h : x w = .ok a w') :
    (liftM x : ActOn σ α) (s, w) = .ok a (s, w') := by
  show x.beside σ (s, w) = _
  simp only [Act.beside, h]

theorem lift_eq_of_error {x : Act α} {e : Fault} {s : σ} {w w' : World} (h : x w = .error e w') :
    (liftM x : ActOn σ α) (s, w) = .error e (s, w') := by
  show x.beside σ (s, w) = _
  simp only [Act.beside, h]

theorem after_current_bind (f : σ → ActOn σ α) (s : σ) (w : World) :
    after (ActOn.current >>= f) (s, w) = after (f s) (s, w) := rfl

theorem after_within (part : σ → τ) (replace : σ → τ → σ) (x : ActOn τ α) (s : σ) (w : World) :
    after (ActOn.within part replace x) (s, w) =
      (replace s (after x (part s, w)).1, (after x (part s, w)).2) := by
  cases h : x (part s, w) <;> simp only [after, ActOn.within, h]

theorem exists_of_within_ok {part : σ → τ} {replace : σ → τ → σ} {x : ActOn τ α} {a : α} {s : σ}
    {w : World} {r : σ × World} (h : ActOn.within part replace x (s, w) = .ok a r) :
    ∃ u w', x (part s, w) = .ok a (u, w') ∧ r = (replace s u, w') := by
  cases hx : x (part s, w) with
  | ok b t =>
    simp only [ActOn.within, hx] at h
    cases h
    exact ⟨t.1, t.2, rfl, rfl⟩
  | error e t => simp only [ActOn.within, hx, reduceCtorEq] at h

theorem PlaysOn.within {part : σ → τ} {replace : σ → τ → σ} {x : ActOn τ α}
    (hx : PlaysOn P J Q x) (hpart : ∀ s, I s → J (part s))
    (hreplace : ∀ s t, I s → J t → I (replace s t)) :
    PlaysOn P I Q (ActOn.within part replace x) := by
  rintro ⟨s, w⟩ hs
  obtain ⟨deeds, hdeeds, hview, hJ, hok⟩ := hx (part s, w) (hpart s hs)
  refine ⟨deeds, hdeeds, by rw [after_within]; exact hview,
    by rw [after_within]; exact hreplace s _ hs hJ, ?_⟩
  intro a s' ha
  obtain ⟨u, w', hrun, -⟩ := exists_of_within_ok ha
  exact hok a (u, w') hrun

theorem PlaysOn.current : PlaysOn P I I (ActOn.current : ActOn σ σ) :=
  .of_still (fun _ => rfl) fun _ _ _ hs ha => by cases ha; exact hs

theorem PlaysOn.become {s : σ} (hs : I s) :
    PlaysOn P I (fun _ => True) (ActOn.become s) :=
  fun _ _ => ⟨[], trivial, rfl, hs, fun _ _ _ => trivial⟩

theorem after_ofActOn (wrap : Fault → SessionError) (x : ActOn σ α) (s : σ × World) :
    after (Step.ofActOn wrap x) s = after x s := by
  cases h : x s <;> simp only [after, Step.ofActOn, h]

theorem ok_of_ofActOn_ok {wrap : Fault → SessionError} {x : ActOn σ α} {a : α} {s r : σ × World}
    (h : Step.ofActOn wrap x s = .ok a r) : x s = .ok a r := by
  cases hx : x s with
  | ok b t =>
    simp only [Step.ofActOn, hx] at h
    cases h
    rfl
  | error e t => simp only [Step.ofActOn, hx, reduceCtorEq] at h

theorem PlaysOn.ofActOn {wrap : Fault → SessionError} {x : ActOn σ α} (hx : PlaysOn P I Q x) :
    PlaysOn P I Q (Step.ofActOn wrap x) := by
  intro s hs
  obtain ⟨deeds, hdeeds, hview, hI, hok⟩ := hx s hs
  exact ⟨deeds, hdeeds, by rw [after_ofActOn]; exact hview, by rw [after_ofActOn]; exact hI,
    fun a s' ha => hok a s' (ok_of_ofActOn_ok ha)⟩

/-- An operation on a world, or on a value, as a step of a session. -/
theorem PlaysOn.liftStep {x : Act α} (hx : Act.Plays P Q x) :
    PlaysOn P I Q (liftM x : Step σ α) := PlaysOn.ofActOn (PlaysOn.beside hx)

theorem PlaysOn.liftActOn {x : ActOn σ α} (hx : PlaysOn P I Q x) :
    PlaysOn P I Q (liftM x : Step σ α) := PlaysOn.ofActOn hx

theorem PlaysOn.here : PlaysOn P I I (Step.here : Step σ σ) :=
  .of_still (fun _ => rfl) fun _ _ _ hs ha => by cases ha; exact hs

theorem PlaysOn.update {f : σ → σ} (hf : ∀ s, I s → I (f s)) :
    PlaysOn P I (fun _ => True) (Step.update f) :=
  fun s hs => ⟨[], trivial, rfl, hf s.1 hs, fun _ _ _ => trivial⟩

theorem PlaysOn.found {e : SessionError} {o : Option α} (ho : ∀ a, o = some a → Q a) :
    PlaysOn P I Q (Step.found e o : Step σ α) := by
  cases o with
  | none => exact .throw e
  | some a => exact .pure a (ho a rfl)

/-- An observed step leaves behind what the step does, with the nodes given up that the session does
not hold. -/
theorem Step.state_observe (held : σ → List NodeId) (x : Step σ α) (s : σ × World) :
    (x.observe held s).2 = ((after x s).1, (after x s).2.settle (held (after x s).1)) := by
  cases h : x s <;> simp only [observe, after, h]

end Lifts

end LightBridge
