import LightBridge.Proofs.Twins.World

/-!
# Operations that end alike

Two operations end alike when, from worlds that correspond, both succeed with answers that
correspond or both fail with the same error, send the same requests, and leave worlds that
correspond. This is put together along the operations: sequences end alike when their parts do.
-/

namespace LightBridge

/-- Errors that tell that an endless duration was added to an instant. -/
class Overflow (ε : Type) where
  overflows : ε → Prop

instance : Overflow Fault := ⟨fun e => e = .timeOverflow⟩

instance : Overflow SessionError where
  overflows
    | .fault e | .client (.fault e) => e = .timeOverflow
    | _ => False

/-- Values that correspond, all names in them given out before some name. -/
structure Tie (α : Type) where
  Rel : Nat → α → α → Prop
  mono : ∀ {n m a a'}, n ≤ m → Rel n a a' → Rel m a a'

variable {ε σ τ α β : Type}

namespace Tie

/-- Values without names correspond when they are equal. -/
def same (α : Type) : Tie α := ⟨fun _ a a' => a' = a, fun _ h => h⟩

/-- Values without names that are equal and meet `P`. -/
def such (P : α → Prop) : Tie α := ⟨fun _ a a' => a' = a ∧ P a, fun _ h => h⟩

/-- Any two values. -/
def any : Tie α := ⟨fun _ _ _ => True, fun _ h => h⟩

/-- Values beside a world. -/
def beside (I : Tie σ) : Tie (σ × World) :=
  ⟨fun n s s' => I.Rel n s.1 s'.1, fun hnm h => I.mono hnm h⟩

/-- Values that are the same but for the names in them. -/
def named (t : Twins) (α : Type) [Named α] : Tie α where
  Rel n a a' := a' = Named.rename t.across a ∧ Named.Within t n a
  mono hnm h := ⟨h.1, Named.mono hnm h.2⟩

/-- Transports. -/
def transports (t : Twins) : Tie TransportId where
  Rel n a a' := a' = t.across.transport a ∧ t.Reaches n a
  mono hnm h := ⟨h.1, h.2.mono hnm⟩

end Tie

/-- What two operations have done to their states: the worlds behind them still correspond, and so
do the states; both have sent the same. -/
structure Twins.Moved (t : Twins) (view : σ → World) (I : Tie σ) (s s' u u' : σ) : Prop where
  grown : (view s).fresh ≤ (view u).fresh
  worlds : t.Worlds (view u) (view u')
  states : I.Rel (view u).fresh u u'
  sent : ∃ new, (view u).sent = (view s).sent ++ new ∧ (view u').sent = (view s').sent ++ new ∧
    ∀ x ∈ new, t.asked x.request

/-- How two operations end: both succeed and answer what corresponds, or both fail with the same
error. -/
inductive Twins.Ends (t : Twins) [Overflow ε] (view : σ → World) (I : Tie σ) (Q : Tie α) (s s' : σ) :
    EStateM.Result ε σ α → EStateM.Result ε σ α → Prop where
  | ok {a a' u u'} : Q.Rel (view u).fresh a a' → t.Moved view I s s' u u' →
    Twins.Ends t view I Q s s' (.ok a u) (.ok a' u')
  | error {e u u'} : (Overflow.overflows e → t.endless) → t.Moved view I s s' u u' →
    Twins.Ends t view I Q s s' (.error e u) (.error e u')

/-- Two operations end alike from states that correspond and have given out the names before `n`. -/
def Alike (t : Twins) [Overflow ε] (n : Nat) (view : σ → World) (I : Tie σ) (Q : Tie α)
    (x x' : EStateM ε σ α) : Prop :=
  ∀ s s', n ≤ (view s).fresh → t.Worlds (view s) (view s') → I.Rel (view s).fresh s s' →
    t.Ends view I Q s s' (x s) (x' s')

/-- `Alike` for operations on a world. -/
abbrev ActsAlike (t : Twins) (n : Nat) (Q : Tie α) (x x' : Act α) : Prop :=
  Alike t n id Tie.any Q x x'

/-- `Alike` for operations on a world and a value. -/
abbrev ActsOnAlike (t : Twins) [Overflow ε] (n : Nat) (I : Tie σ) (Q : Tie α)
    (x x' : EStateM ε (σ × World) α) : Prop :=
  Alike t n Prod.snd I.beside Q x x'

namespace Twins.Moved

variable {t : Twins} {view : σ → World} {I : Tie σ} {s s' u u' v v' : σ}

theorem refl (hworlds : t.Worlds (view s) (view s')) (hstates : I.Rel (view s).fresh s s') :
    t.Moved view I s s' s s' :=
  ⟨Nat.le_refl _, hworlds, hstates, [], by simp, by simp, by simp⟩

theorem trans (h : t.Moved view I s s' u u') (h' : t.Moved view I u u' v v') :
    t.Moved view I s s' v v' := by
  refine ⟨Nat.le_trans h.grown h'.grown, h'.worlds, h'.states, ?_⟩
  obtain ⟨first, hfirst, hfirst', hasked⟩ := h.sent
  obtain ⟨second, hsecond, hsecond', hasked'⟩ := h'.sent
  refine ⟨first ++ second, ?_, ?_, fun x hx => ?_⟩
  · rw [hsecond, hfirst, List.append_assoc]
  · rw [hsecond', hfirst', List.append_assoc]
  · exact (List.mem_append.mp hx).elim (hasked x) (hasked' x)

theorem silent (hgrown : (view s).fresh ≤ (view u).fresh) (hworlds : t.Worlds (view u) (view u'))
    (hstates : I.Rel (view u).fresh u u') (hsent : (view u).sent = (view s).sent)
    (hsent' : (view u').sent = (view s').sent) : t.Moved view I s s' u u' :=
  ⟨hgrown, hworlds, hstates, [], by simpa using hsent, by simpa using hsent', by simp⟩

theorem drop_sent (h : t.Moved view I s s' u u') :
    (view u').sent.drop (view s').sent.length = (view u).sent.drop (view s).sent.length := by
  obtain ⟨new, hnew, hnew', -⟩ := h.sent
  rw [hnew, hnew', List.drop_left, List.drop_left]

theorem asked (h : t.Moved view I s s' u u') :
    ∀ x ∈ (view u).sent.drop (view s).sent.length, t.asked x.request := by
  obtain ⟨new, hnew, -, hasked⟩ := h.sent
  rwa [hnew, List.drop_left]

end Twins.Moved

theorem Twins.Ends.after {t : Twins} [Overflow ε] {view : σ → World} {I : Tie σ} {Q : Tie α}
    {s s' u u' : σ} {r r' : EStateM.Result ε σ α} (h : t.Ends view I Q u u' r r')
    (hmoved : t.Moved view I s s' u u') : t.Ends view I Q s s' r r' := by
  cases h with
  | ok ha hmoved' => exact .ok ha (hmoved.trans hmoved')
  | error he hmoved' => exact .error he (hmoved.trans hmoved')

namespace Alike

variable {t : Twins} [Overflow ε] {n m : Nat} {view : σ → World} {I : Tie σ} {Q : Tie α} {R : Tie β}

theorem mono {x x' : EStateM ε σ α} (hx : Alike t n view I Q x x') (hnm : n ≤ m) :
    Alike t m view I Q x x' :=
  fun s s' hm => hx s s' (Nat.le_trans hnm hm)

theorem pure {a a' : α} (h : Q.Rel n a a') :
    Alike t n view I Q (pure a : EStateM ε σ α) (pure a') :=
  fun _ _ hn hworlds hstates => .ok (Q.mono hn h) (.refl hworlds hstates)

theorem throw {e : ε} (h : Overflow.overflows e → t.endless) :
    Alike t n view I Q (throw e : EStateM ε σ α) (throw e) :=
  fun _ _ _ hworlds hstates => .error h (.refl hworlds hstates)

theorem bind {x x' : EStateM ε σ α} {f f' : α → EStateM ε σ β} (hx : Alike t n view I Q x x')
    (hf : ∀ m a a', n ≤ m → Q.Rel m a a' → Alike t m view I R (f a) (f' a')) :
    Alike t n view I R (x >>= f) (x' >>= f') := by
  intro s s' hn hworlds hstates
  have hends := hx s s' hn hworlds hstates
  simp only [Bind.bind, EStateM.bind]
  generalize x s = r at hends ⊢
  generalize x' s' = r' at hends ⊢
  cases hends with
  | error he hmoved => exact .error he hmoved
  | ok ha hmoved =>
    -- the second parts start where the first ones ended, with answers that correspond
    exact (hf _ _ _ (Nat.le_trans hn hmoved.grown) ha _ _ (Nat.le_refl _) hmoved.worlds
      hmoved.states).after hmoved

theorem map {f : α → β} {x x' : EStateM ε σ α} (hx : Alike t n view I Q x x')
    (hf : ∀ m a a', n ≤ m → Q.Rel m a a' → R.Rel m (f a) (f a')) :
    Alike t n view I R (f <$> x) (f <$> x') := by
  rw [map_eq_bind, map_eq_bind]
  exact hx.bind fun m a a' hm ha => .pure (hf m a a' hm ha)

theorem andThen {x x' : EStateM ε σ α} {y y' : EStateM ε σ β} (hx : Alike t n view I Q x x')
    (hy : Alike t n view I R y y') :
    Alike t n view I R (x >>= fun _ => y) (x' >>= fun _ => y') :=
  hx.bind fun _ _ _ hm _ => hy.mono hm

end Alike

/-! ## Operations on a world and a value -/

section Lifts

variable {t : Twins} {n : Nat} {I : Tie σ} {J : Tie τ} {Q : Tie α}

theorem Alike.beside {x x' : Act α} (hx : ActsAlike t n Q x x') :
    ActsOnAlike t n I Q (x.beside σ) (x'.beside σ) := by
  rintro ⟨s, w⟩ ⟨s', w'⟩ hn hworlds hstates
  have hends := hx w w' hn hworlds trivial
  simp only [Act.beside]
  generalize x w = r at hends ⊢
  generalize x' w' = r' at hends ⊢
  cases hends with
  | error he hmoved =>
    exact .error he ⟨hmoved.grown, hmoved.worlds, I.mono hmoved.grown hstates, hmoved.sent⟩
  | ok ha hmoved =>
    exact .ok ha ⟨hmoved.grown, hmoved.worlds, I.mono hmoved.grown hstates, hmoved.sent⟩

theorem Alike.lift {x x' : Act α} (hx : ActsAlike t n Q x x') :
    ActsOnAlike t n I Q (liftM x : ActOn σ α) (liftM x') :=
  Alike.beside hx

theorem Alike.within {part : σ → τ} {replace : σ → τ → σ} {x x' : ActOn τ α}
    (hx : ActsOnAlike t n J Q x x') (hpart : ∀ m s s', I.Rel m s s' → J.Rel m (part s) (part s'))
    (hreplace : ∀ m s s' u u', I.Rel m s s' → J.Rel m u u' → I.Rel m (replace s u) (replace s' u')) :
    ActsOnAlike t n I Q (ActOn.within part replace x) (ActOn.within part replace x') := by
  rintro ⟨s, w⟩ ⟨s', w'⟩ hn hworlds hstates
  have hends := hx (part s, w) (part s', w') hn hworlds (hpart _ _ _ hstates)
  simp only [ActOn.within]
  generalize x (part s, w) = r at hends ⊢
  generalize x' (part s', w') = r' at hends ⊢
  cases hends with
  | error he hmoved =>
    exact .error he ⟨hmoved.grown, hmoved.worlds,
      hreplace _ _ _ _ _ (I.mono hmoved.grown hstates) hmoved.states, hmoved.sent⟩
  | ok ha hmoved =>
    exact .ok ha ⟨hmoved.grown, hmoved.worlds,
      hreplace _ _ _ _ _ (I.mono hmoved.grown hstates) hmoved.states, hmoved.sent⟩

theorem Alike.current : ActsOnAlike t n I I (ActOn.current : ActOn σ σ) ActOn.current :=
  fun _ _ _ hworlds hstates => .ok hstates (.refl hworlds hstates)

theorem Alike.become {s s' : σ} (hs : I.Rel n s s') :
    ActsOnAlike t n I Tie.any (ActOn.become s) (ActOn.become s') :=
  fun _ _ hn hworlds _ =>
    .ok trivial (.silent (Nat.le_refl _) hworlds (I.mono hn hs) rfl rfl)

end Lifts

/-! ## Steps -/

section Steps

variable {t : Twins} {n : Nat} {I : Tie σ} {Q : Tie α}

theorem Alike.ofActOn {wrap : Fault → SessionError} {x x' : ActOn σ α}
    (hwrap : ∀ e, Overflow.overflows (wrap e) → e = .timeOverflow) (hx : ActsOnAlike t n I Q x x') :
    ActsOnAlike t n I Q (Step.ofActOn wrap x) (Step.ofActOn wrap x') := by
  intro s s' hn hworlds hstates
  have hends := hx s s' hn hworlds hstates
  simp only [Step.ofActOn]
  generalize x s = r at hends ⊢
  generalize x' s' = r' at hends ⊢
  cases hends with
  | error he hmoved => exact .error (fun h => he (hwrap _ h)) hmoved
  | ok ha hmoved => exact .ok ha hmoved

theorem Alike.asClient {x x' : ActOn σ α} (hx : ActsOnAlike t n I Q x x') :
    ActsOnAlike t n I Q (Step.asClient x) (Step.asClient x') :=
  .ofActOn (fun _ h => h) hx

theorem Alike.liftActOn {x x' : ActOn σ α} (hx : ActsOnAlike t n I Q x x') :
    ActsOnAlike t n I Q (liftM x : Step σ α) (liftM x') :=
  .ofActOn (fun _ h => h) hx

theorem Alike.liftStep {x x' : Act α} (hx : ActsAlike t n Q x x') :
    ActsOnAlike t n I Q (liftM x : Step σ α) (liftM x') :=
  .ofActOn (fun _ h => h) hx.beside

theorem Alike.here : ActsOnAlike t n I I (Step.here : Step σ σ) Step.here :=
  fun _ _ _ hworlds hstates => .ok hstates (.refl hworlds hstates)

theorem Alike.update {f f' : σ → σ}
    (hf : ∀ m s s', n ≤ m → I.Rel m s s' → I.Rel m (f s) (f' s')) :
    ActsOnAlike t n I .any (Step.update f) (Step.update f') :=
  fun _ _ hn hworlds hstates =>
    .ok trivial (.silent (Nat.le_refl _) hworlds (hf _ _ _ hn hstates) rfl rfl)

end Steps

/-! ## Operations on a world -/

section Acts

variable {t : Twins} {n : Nat} {Q : Tie α} {w w' u u' : World} {a a' : α}

theorem ActsAlike.intro {x x' : Act α}
    (h : ∀ w w' : World, n ≤ w.fresh → t.Worlds w w' → t.Ends id Tie.any Q w w' (x w) (x' w')) :
    ActsAlike t n Q x x' :=
  fun w w' hn hworlds _ => h w w' hn hworlds

theorem Twins.Ends.quiet (ha : Q.Rel u.fresh a a') (hgrown : w.fresh ≤ u.fresh)
    (hworlds : t.Worlds u u') (hsent : u.sent = w.sent) (hsent' : u'.sent = w'.sent) :
    t.Ends (ε := Fault) id Tie.any Q w w' (.ok a u) (.ok a' u') :=
  .ok ha (.silent hgrown hworlds trivial hsent hsent')

theorem Twins.Ends.still (ha : Q.Rel w.fresh a a') (hworlds : t.Worlds w w') :
    t.Ends (ε := Fault) id Tie.any Q w w' (.ok a w) (.ok a' w') :=
  .ok ha (.refl hworlds trivial)

theorem Twins.Ends.refused {e : Fault} (he : e = .timeOverflow → t.endless)
    (hworlds : t.Worlds w w') : t.Ends id Tie.any Q w w' (.error e w) (.error e w') :=
  .error he (.refl hworlds trivial)

end Acts

namespace Act

variable {t : Twins} {n : Nat} {Q : Tie α}

theorem alike_ofExcept {r : Except Fault α} (hok : ∀ a, r = .ok a → Q.Rel n a a)
    (hr : ∀ e, r = .error e → e ≠ .timeOverflow) : ActsAlike t n Q (ofExcept r) (ofExcept r) := by
  cases r with
  | ok a => exact .pure (hok a rfl)
  | error e => exact .throw fun he => absurd he (hr e rfl)

/-- Both runs meet the same fault, which both forgive or neither does. -/
theorem alike_forgiving {forgiven : Fault → Bool} {x x' : Act Unit}
    (hx : ActsAlike t n .any x x') :
    ActsAlike t n .any (forgiving forgiven x) (forgiving forgiven x') := by
  refine .intro fun w w' hn hworlds => ?_
  have hends := hx w w' hn hworlds trivial
  unfold forgiving
  generalize x w = r at hends ⊢
  generalize x' w' = r' at hends ⊢
  cases hends with
  | ok _ hmoved => exact .ok trivial hmoved
  | error he hmoved =>
    dsimp only
    split
    · exact .ok trivial hmoved
    · exact .error he hmoved

theorem alike_now : ActsAlike t n (.same Instant) now now :=
  .intro fun _ _ _ hworlds => .still hworlds.now hworlds

theorem alike_wait {d : Duration} (hd : d = .never → t.endless) :
    ActsAlike t n .any (wait d) (wait d) := by
  refine .intro fun w w' _ hworlds => ?_
  simp only [wait]
  cases d with
  | never => exact .refused (fun _ => hd rfl) hworlds
  | millis k =>
    exact .quiet trivial (Nat.le_refl _) (hworlds.pass (by rw [hworlds.now])) rfl rfl

theorem alike_nextAllowed {slot : SlotId} (hslot : t.since ≤ slot) :
    ActsAlike t n (.same Instant) (nextAllowed slot) (nextAllowed (t.across.name slot)) :=
  .intro fun _ _ _ hworlds => .still (hworlds.nextAllowed hslot) hworlds

theorem alike_latency {transport : TransportId} (h : t.Reaches n transport) :
    ActsAlike t n (.same Nat) (latency transport) (latency (t.across.transport transport)) :=
  .intro fun _ _ _ hworlds => .still (congrArg Script.latency (hworlds.scripts _ h.since)) hworlds

theorem alike_waiting {transport : TransportId} (h : t.Reaches n transport) (method : Method)
    (uri : String) :
    ActsAlike t n (.same Nat) (waiting transport method uri)
      (waiting (t.across.transport transport) method uri) :=
  .intro fun _ _ _ hworlds =>
    .still (congrArg (Script.waiting · method uri) (hworlds.scripts _ h.since)) hworlds

theorem alike_changeScript {transport : TransportId} (h : t.Reaches n transport)
    (f : Script → Script) :
    ActsAlike t n .any (changeScript transport f)
      (changeScript (t.across.transport transport) f) := by
  refine .intro fun w w' hn hworlds => ?_
  have hset := hworlds.setScript (h.mono hn) (f (w.script transport))
  refine .quiet trivial (Nat.le_refl _) ?_ rfl rfl
  show t.Worlds { w with transports := w.transports.set transport (f (w.script transport)) }
    { w' with transports :=
        w'.transports.set (t.across.transport transport) (f (w'.script _)) }
  rw [hworlds.scripts transport h.since]
  exact hset

theorem alike_addTransport (script : Script) :
    ActsAlike t n (.transports t) (addTransport script) (addTransport script) :=
  .intro fun _ _ _ hworlds =>
    .quiet ⟨hworlds.transport_fresh, .inl hworlds.has_fresh⟩ (Nat.le_succ _)
      (hworlds.newTransport script) rfl rfl

end Act

end LightBridge
