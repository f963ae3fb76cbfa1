import LightBridge.Proofs.Play

/-!
# What operations keep

An operation on a world and on a value beside it may break off anywhere. `Keeps I Q x` says that it
leaves a value that meets `I` all the same, and that what it returns meets `Q`. What it does to the
world is of no concern, so whatever is lifted from the world keeps everything.
-/

namespace LightBridge

variable {ε σ τ α β : Type} {I : σ → Prop} {J : τ → Prop} {Q : α → Prop} {R : β → Prop}

/-- An operation keeps `I`, whether it succeeds or fails, and what it returns meets `Q`. -/
def Keeps (I : σ → Prop) (Q : α → Prop) (x : EStateM ε (σ × World) α) : Prop :=
  ∀ s, I s.1 → I (after x s).1 ∧ ∀ a s', x s = .ok a s' → Q a

namespace Keeps

theorem of_still {x : EStateM ε (σ × World) α} (hx : ∀ s, (after x s).1 = s.1)
    (hQ : ∀ s a s', I s.1 → x s = .ok a s' → Q a) : Keeps I Q x :=
  fun s hs => ⟨by rwa [hx], fun a s' => hQ s a s' hs⟩

theorem pure (a : α) (h : Q a) : Keeps I Q (pure a : EStateM ε (σ × World) α) :=
  of_still (fun _ => rfl) fun s b s' _ hb => by cases hb; exact h

theorem throw (e : ε) : Keeps I Q (throw e : EStateM ε (σ × World) α) :=
  of_still (fun _ => rfl) fun s b s' _ hb => by cases hb

theorem bind {x : EStateM ε (σ × World) α} {f : α → EStateM ε (σ × World) β} (hx : Keeps I Q x)
    (hf : ∀ a, Q a → Keeps I R (f a)) : Keeps I R (x >>= f) := by
  intro s hs
  obtain ⟨hI, hok⟩ := hx s hs
  cases h : x s with
  | error e s' =>
    rw [after_of_error h] at hI
    rw [after_bind_of_error h]
    refine ⟨hI, fun b s'' hb => ?_⟩
    simp only [Bind.bind, EStateM.bind, h, reduceCtorEq] at hb
  | ok a s' =>
    rw [after_of_ok h] at hI
    rw [after_bind_of_ok h]
    obtain ⟨hI', hok'⟩ := hf a (hok a s' h) s' hI
    refine ⟨hI', fun b s'' hb => hok' b s'' ?_⟩
    simpa only [Bind.bind, EStateM.bind, h] using hb

theorem map {f : α → β} {x : EStateM ε (σ × World) α} (hx : Keeps I Q x) (hf : ∀ a, Q a → R (f a)) :
    Keeps I R (f <$> x) := by
  rw [map_eq_bind]
  exact hx.bind fun a ha => .pure (f a) (hf a ha)

/-- An operation whose result is only told. -/
theorem told {f : α → β} {x : EStateM ε (σ × World) α} (hx : Keeps I Q x) :
    Keeps I (fun _ => True) (x >>= fun a => Pure.pure (f a)) :=
  hx.bind fun _ _ => .pure _ trivial

/-! ## Operations on a world and a value -/

theorem beside {x : Act α} (hQ : ∀ w a w', x w = .ok a w' → Q a) : Keeps I Q (x.beside σ) := by
  refine of_still (fun s => by rw [after_beside]) fun s a s' _ ha => ?_
  obtain ⟨w', hrun, -⟩ := exists_of_beside_ok ha
  exact hQ s.2 a w' hrun

theorem lift {x : Act α} (hQ : ∀ w a w', x w = .ok a w' → Q a) :
    Keeps I Q (liftM x : ActOn σ α) :=
  beside hQ

/-- Nothing that is done to the world changes the value beside it. -/
theorem act (x : Act α) : Keeps I (fun _ => True) (liftM x : ActOn σ α) :=
  lift fun _ _ _ _ => trivial

theorem ofActOn {wrap : Fault → SessionError} {x : ActOn σ α} (hx : Keeps I Q x) :
    Keeps I Q (Step.ofActOn wrap x) := by
  intro s hs
  obtain ⟨hI, hok⟩ := hx s hs
  rw [after_ofActOn]
  exact ⟨hI, fun a s' ha => hok a s' (ok_of_ofActOn_ok ha)⟩

theorem liftStep {x : Act α} (hQ : ∀ w a w', x w = .ok a w' → Q a) :
    Keeps I Q (liftM x : Step σ α) :=
  ofActOn (beside hQ)

theorem actStep (x : Act α) : Keeps I (fun _ => True) (liftM x : Step σ α) :=
  liftStep fun _ _ _ _ => trivial

theorem liftActOn {x : ActOn σ α} (hx : Keeps I Q x) : Keeps I Q (liftM x : Step σ α) :=
  ofActOn hx

theorem within {part : σ → τ} {replace : σ → τ → σ} {x : ActOn τ α} (hx : Keeps J Q x)
    (hpart : ∀ s, I s → J (part s)) (hreplace : ∀ s t, I s → J t → I (replace s t)) :
    Keeps I Q (ActOn.within part replace x) := by
  rintro ⟨s, w⟩ hs
  obtain ⟨hJ, hok⟩ := hx (part s, w) (hpart s hs)
  rw [after_within]
  refine ⟨hreplace s _ hs hJ, fun a s' ha => ?_⟩
  obtain ⟨u, w', hrun, -⟩ := exists_of_within_ok ha
  exact hok a (u, w') hrun

theorem current : Keeps I I (ActOn.current : ActOn σ σ) :=
  of_still (fun _ => rfl) fun _ _ _ hs ha => by cases ha; exact hs

theorem become {s : σ} (hs : I s) : Keeps I (fun _ => True) (ActOn.become s) :=
  fun _ _ => ⟨hs, fun _ _ _ => trivial⟩

theorem here : Keeps I I (Step.here : Step σ σ) :=
  of_still (fun _ => rfl) fun _ _ _ hs ha => by cases ha; exact hs

theorem update {f : σ → σ} (hf : ∀ s, I s → I (f s)) : Keeps I (fun _ => True) (Step.update f) :=
  fun s hs => ⟨hf s.1 hs, fun _ _ _ => trivial⟩

theorem found {e : SessionError} {o : Option α} (ho : ∀ a, o = some a → Q a) :
    Keeps I Q (Step.found e o : Step σ α) := by
  cases o with
  | none => exact .throw e
  | some a => exact .pure a (ho a rfl)

end Keeps

end LightBridge
