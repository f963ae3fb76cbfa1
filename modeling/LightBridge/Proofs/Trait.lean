import LightBridge.Proofs.Cache.Play
import Mathlib.Data.List.Nodup

/-!
# Where handles come from

A handle is made under the next name, or it is a copy of one that is there. So whatever new roots
have, what new views have when the cache above them has it, and what lasts while more names are
given out, is a trait that all handles of a session have once some of them had it. All handles read
from roots that are known, which is why only known roots are fetched and updated. `Passes` says that
an operation passes a trait on and does nothing but its task, and it is put together along the
operation.
-/

namespace LightBridge

variable {ε σ τ α β : Type}

/-! ## Names -/

/-- The names that were given out, which are those below `next`, and the roots that got one. -/
structure Names where
  next : Nat
  /-- The roots, as they were made. -/
  roots : List Cache
  given : ∀ r ∈ roots, r.rootNode < next
  distinct : (roots.map (·.rootNode)).Nodup

namespace Names

/-- The names before any root was made. -/
def rootless (next : Nat) : Names := ⟨next, [], nofun, List.nodup_nil⟩

/-- Names are given out and not taken back: roots stay as they were made, and a new root gets a new
name. -/
structure Grown (k l : Names) : Prop where
  next : k.next ≤ l.next
  roots : ∀ r ∈ k.roots, r ∈ l.roots
  new : ∀ r ∈ l.roots, r ∈ k.roots ∨ k.next ≤ r.rootNode

instance : LE Names := ⟨Grown⟩

variable {k l m : Names}

protected theorem le_refl (k : Names) : k ≤ k := ⟨Nat.le_refl _, fun _ hr => hr, fun _ => .inl⟩

protected theorem le_trans (hkl : k ≤ l) (hlm : l ≤ m) : k ≤ m where
  next := Nat.le_trans hkl.next hlm.next
  roots r hr := hlm.roots r (hkl.roots r hr)
  new r hr := (hlm.new r hr).elim (hkl.new r) fun h => .inr (Nat.le_trans hkl.next h)

/-- More names, none of them a root's. -/
def upTo (k : Names) {next : Nat} (h : k.next ≤ next) : Names :=
  { k with next, given := fun r hr => Nat.lt_of_lt_of_le (k.given r hr) h }

theorem le_upTo {next : Nat} (h : k.next ≤ next) : k ≤ k.upTo h := ⟨h, fun _ hr => hr, fun _ => .inl⟩

/-- The next name is given out, but not to a root. -/
def withName (k : Names) : Names := k.upTo (Nat.le_succ k.next)

/-- The next name is given to a root. -/
def withRoot (k : Names) (path : String) (channel : Channel) (interval : Duration) : Names where
  next := k.next + 1
  roots := .root k.next path channel interval :: k.roots
  given := List.forall_mem_cons.mpr
    ⟨Nat.lt_succ_self _, fun r hr => Nat.lt_succ_of_lt (k.given r hr)⟩
  distinct := by
    refine List.nodup_cons.mpr ⟨fun hmem => ?_, k.distinct⟩
    obtain ⟨r, hr, hnode⟩ := List.mem_map.mp hmem
    exact Nat.ne_of_lt (k.given r hr) hnode

theorem le_withRoot (path : String) (channel : Channel) (interval : Duration) :
    k ≤ k.withRoot path channel interval where
  next := Nat.le_succ _
  roots _ hr := List.mem_cons_of_mem _ hr
  new r hr := by
    rcases List.mem_cons.mp hr with rfl | hr
    · exact .inr (Nat.le_refl _)
    · exact .inl hr

/-- The names, but of the roots only those with some of the nodes. -/
def only (k : Names) (nodes : List NodeId) : Names where
  next := k.next
  roots := k.roots.filter fun r => nodes.contains r.rootNode
  given r hr := k.given r (List.mem_filter.mp hr).1
  distinct := k.distinct.sublist (List.filter_sublist.map _)

theorem mem_only {nodes : List NodeId} {r : Cache} :
    r ∈ (k.only nodes).roots ↔ r ∈ k.roots ∧ r.rootNode ∈ nodes := by
  simp [only]

/-- The names in `l`, and the roots in `k` beside those that were made after them. -/
def join (k l : Names) (h : k.next ≤ l.next) : Names where
  next := l.next
  roots := k.roots ++ l.roots.filter fun r => k.next ≤ r.rootNode
  given r hr := by
    rcases List.mem_append.mp hr with hr | hr
    · exact Nat.lt_of_lt_of_le (k.given r hr) h
    · exact l.given r (List.mem_filter.mp hr).1
  distinct := by
    rw [List.map_append]
    refine List.nodup_append'.mpr ⟨k.distinct, l.distinct.sublist (List.filter_sublist.map _), ?_⟩
    intro node hold hnew
    obtain ⟨r, hr, rfl⟩ := List.mem_map.mp hold
    obtain ⟨r', hr', hnode⟩ := List.mem_map.mp hnew
    -- a root of before has one of the names of before
    have hle : k.next ≤ r'.rootNode := of_decide_eq_true (List.mem_filter.mp hr').2
    rw [hnode] at hle
    exact Nat.not_lt_of_le hle (k.given r hr)

theorem le_join (h : k.next ≤ l.next) : k ≤ k.join l h where
  next := h
  roots _ hr := List.mem_append_left _ hr
  new r hr := by
    rcases List.mem_append.mp hr with hold | hnew
    · exact .inl hold
    · exact .inr (of_decide_eq_true (List.mem_filter.mp hnew).2)

/-- What some of the names have grown to is there beside all of them. -/
theorem mem_join {nodes : List NodeId} (h : k.only nodes ≤ l) {r : Cache} (hr : r ∈ l.roots) :
    r ∈ (k.join l h.next).roots := by
  rcases h.new r hr with hold | hnew
  · exact List.mem_append_left _ (mem_only.mp hold).1
  · exact List.mem_append_right _ (List.mem_filter.mpr ⟨hr, decide_eq_true hnew⟩)

end Names

/-! ## What lasts -/

/-- What holds of a thing when some names were given out, and goes on to hold while more are. -/
@[ext] structure Enduring (α : Type) where
  At : Names → α → Prop
  mono : ∀ {k l a}, k ≤ l → At k a → At l a

namespace Enduring

/-- What holds of everything. -/
def any : Enduring α := ⟨fun _ _ => True, fun _ h => h⟩

/-- What holds of something beside a world. -/
def beside (I : Enduring σ) : Enduring (σ × World) := ⟨fun n s => I.At n s.1, I.mono⟩

/-- What holds of a part. -/
def on (Q : Enduring α) (part : β → α) : Enduring β := ⟨fun n b => Q.At n (part b), Q.mono⟩

/-- What holds of two things. -/
def both (Q : Enduring α) (R : Enduring β) : Enduring (α × β) :=
  ⟨fun n p => Q.At n p.1 ∧ R.At n p.2, fun hnm h => ⟨Q.mono hnm h.1, R.mono hnm h.2⟩⟩

/-- What holds of all things in a list. -/
def all (Q : Enduring α) : Enduring (List α) :=
  ⟨fun n as => ∀ a ∈ as, Q.At n a, fun hnm h a ha => Q.mono hnm (h a ha)⟩

end Enduring

/-- What handles inherit, from the name `since` on: beside reading from a known root. -/
structure Trait extends Enduring Cache where
  since : Nat
  known : ∀ {k c}, At k c → c.top ∈ k.roots
  root : ∀ {k : Names} {path channel interval}, since ≤ k.next →
    At (k.withRoot path channel interval) (.root k.next path channel interval)
  child : ∀ {k : Names} {parent key}, since ≤ k.next → At k parent →
    At k.withName (.child parent k.next key)

/-- Reading from a known root is a trait in itself. -/
def Trait.reading : Trait where
  At k c := c.top ∈ k.roots
  mono h hc := h.roots _ hc
  since := 0
  known hc := hc
  root _ := List.mem_cons_self
  child _ hc := hc

/-! ## Operations -/

/-- From a state that meets `I`, in a world that has given out the names in `k`, an operation gets to
one that does so too, by deeds that serve a task and reach known roots only. This holds whether it
succeeds or fails, and what it returns meets `Q`. -/
def PassesFrom (t : Trait) (task : Task) (n : Names) (view : σ → World) (I : Enduring σ)
    (Q : Enduring α) (x : EStateM ε σ α) (s : σ) : Prop :=
  -- what the operation was given has its names in `n`, and the state has them in `k`
  ∀ k : Names, k.next = (view s).fresh → t.since ≤ k.next → n ≤ k → I.At k s →
    ∃ l deeds, k ≤ l ∧ l.next = (view (after x s)).fresh ∧
      (view s).Follows (task.Admits l.roots) deeds ∧ view (after x s) = (view s).enactAll deeds ∧
      I.At l (after x s) ∧ ∀ a s', x s = .ok a s' → Q.At l a

/-- `PassesFrom` for all states. -/
def Passes (t : Trait) (task : Task) (n : Names) (view : σ → World) (I : Enduring σ)
    (Q : Enduring α) (x : EStateM ε σ α) : Prop :=
  ∀ s, PassesFrom t task n view I Q x s

/-- `Passes` for an operation on a world. -/
abbrev Act.Passes (t : Trait) (task : Task) (n : Names) (Q : Enduring α) (x : Act α) : Prop :=
  LightBridge.Passes t task n id .any Q x

/-- `PassesFrom` for an operation on a world and a value that meets `I`. -/
abbrev PassesOnFrom (t : Trait) (task : Task) (n : Names) (I : Enduring σ) (Q : Enduring α)
    (x : EStateM ε (σ × World) α) (s : σ × World) : Prop :=
  PassesFrom t task n Prod.snd I.beside Q x s

/-- `Passes` for an operation on a world and a value that meets `I`. -/
abbrev PassesOn (t : Trait) (task : Task) (n : Names) (I : Enduring σ) (Q : Enduring α)
    (x : EStateM ε (σ × World) α) : Prop :=
  Passes t task n Prod.snd I.beside Q x

section Operations

variable {t : Trait} {task : Task} {n : Names} {view : σ → World} {I : Enduring σ} {Q : Enduring α}
  {R : Enduring β}

namespace PassesFrom

variable {s : σ}

/-- An operation that changes nothing. -/
theorem of_still {x : EStateM ε σ α} (hx : after x s = s)
    (hQ : ∀ k a s', n ≤ k → I.At k s → x s = .ok a s' → Q.At k a) :
    PassesFrom t task n view I Q x s := by
  intro k hk _ hn hI
  exact ⟨k, [], k.le_refl, by rw [hx, hk], trivial, by rw [hx]; rfl, by rwa [hx],
    fun a s' ha => hQ k a s' hn hI ha⟩

/-- What is known of the names given out so far is known in the second part as well. -/
theorem bind {x : EStateM ε σ α} {f : α → EStateM ε σ β} (hx : PassesFrom t task n view I Q x s)
    (hf : ∀ a s' k, x s = .ok a s' → n ≤ k → Q.At k a → PassesFrom t task k view I R (f a) s') :
    PassesFrom t task n view I R (x >>= f) s := by
  intro k hk hsince hn hI
  obtain ⟨l, first, hkl, hl, hfirst, hworld, hI', hok⟩ := hx k hk hsince hn hI
  cases h : x s with
  | error e s' =>
    rw [after_of_error h] at hl hworld hI'
    rw [after_bind_of_error h]
    refine ⟨l, first, hkl, hl, hfirst, hworld, hI', fun b s'' hb => ?_⟩
    simp only [Bind.bind, EStateM.bind, h, reduceCtorEq] at hb
  | ok a s' =>
    -- the second part starts with the names that the first one has given out
    rw [after_of_ok h] at hl hworld hI'
    rw [after_bind_of_ok h]
    obtain ⟨m, second, hlm, hm, hsecond, hworld', hI'', hok'⟩ :=
      hf a s' l h (Names.le_trans hn hkl) (hok a s' h) l hl (Nat.le_trans hsince hkl.next)
        l.le_refl hI'
    refine ⟨m, first ++ second, Names.le_trans hkl hlm, hm, ?_, ?_, hI'',
      fun b s'' hb => hok' b s'' ?_⟩
    · rw [World.follows_append, ← hworld]
      exact ⟨hfirst.mono (Task.Admits.mono hlm.roots), hsecond⟩
    · rw [hworld', hworld, World.enactAll_append]
    · simpa only [Bind.bind, EStateM.bind, h] using hb

/-- An operation that does the same from a state. -/
theorem of_eq {x y : EStateM ε σ α} (h : y s = x s) (hx : PassesFrom t task n view I Q x s) :
    PassesFrom t task n view I Q y s := by
  have hafter : after y s = after x s := by simp only [after, h]
  unfold PassesFrom
  rw [hafter, h]
  exact hx

/-- What is known of the state may be used. -/
theorem of_state {x : EStateM ε σ α}
    (h : ∀ k, n ≤ k → I.At k s → PassesFrom t task k view I Q x s) :
    PassesFrom t task n view I Q x s :=
  fun k hk hsince hn hI => h k hn hI k hk hsince k.le_refl hI

end PassesFrom

namespace Passes

theorem pure {a : α} (h : Q.At n a) : Passes t task n view I Q (pure a : EStateM ε σ α) :=
  fun _ => .of_still rfl fun k b s' hn _ hb => by
    cases hb
    exact Q.mono hn h

theorem throw (e : ε) : Passes t task n view I Q (throw e : EStateM ε σ α) :=
  fun _ => .of_still rfl fun k b s' _ _ hb => by cases hb

theorem bind {x : EStateM ε σ α} {f : α → EStateM ε σ β} (hx : Passes t task n view I Q x)
    (hf : ∀ a k, n ≤ k → Q.At k a → Passes t task k view I R (f a)) :
    Passes t task n view I R (x >>= f) :=
  fun s => (hx s).bind fun a s' k _ hk ha => hf a k hk ha s'

theorem map {f : α → β} {x : EStateM ε σ α} (hx : Passes t task n view I Q x)
    (hf : ∀ a k, n ≤ k → Q.At k a → R.At k (f a)) : Passes t task n view I R (f <$> x) := by
  rw [map_eq_bind]
  exact hx.bind fun a k hk ha => .pure (hf a k hk ha)

/-- An operation whose result is only told. -/
theorem told {f : α → β} {x : EStateM ε σ α} (hx : Passes t task n view I Q x) :
    Passes t task n view I .any (x >>= fun a => Pure.pure (f a)) :=
  hx.bind fun _ _ _ _ => .pure trivial

/-- What an operation does to a world it does with the names that it was given. -/
theorem of_plays {Q' : α → Prop} {x : Act α} (hx : Act.Plays (task.Admits n.roots) Q' x) :
    Act.Passes t task n .any x := by
  intro w k hk _ hn _
  obtain ⟨deeds, hdeeds, hview, -, -⟩ := hx w trivial
  have hworld : after x w = w.enactAll deeds := hview
  have hgrown : k.next ≤ (after x w).fresh := by
    rw [hk, hworld]
    exact w.fresh_le_enactAll deeds
  exact ⟨k.upTo hgrown, deeds, Names.le_upTo hgrown, rfl, hdeeds.mono (Task.Admits.mono hn.roots),
    hworld, trivial, fun _ _ _ => trivial⟩

end Passes

theorem PassesFrom.told {f : α → β} {x : EStateM ε σ α} {s : σ}
    (hx : PassesFrom t task n view I Q x s) :
    PassesFrom t task n view I .any (x >>= fun a => Pure.pure (f a)) s :=
  hx.bind fun _ _ _ _ _ _ => Passes.pure trivial _

theorem PassesFrom.map {f : α → β} {x : EStateM ε σ α} {s : σ}
    (hx : PassesFrom t task n view I Q x s) (hf : ∀ a k, n ≤ k → Q.At k a → R.At k (f a)) :
    PassesFrom t task n view I R (f <$> x) s := by
  rw [map_eq_bind]
  exact hx.bind fun a _ k _ hk ha => Passes.pure (hf a k hk ha) _

end Operations

/-! ## Operations on a world and a value -/

section Lifts

variable {t : Trait} {task : Task} {n : Names} {I : Enduring σ} {J : Enduring τ} {Q : Enduring α}
  {R : Enduring β}

theorem PassesOn.beside {x : Act α} (hx : Act.Passes t task n Q x) :
    PassesOn t task n I Q (x.beside σ) := by
  rintro ⟨s, w⟩ k hk hsince hn hI
  obtain ⟨l, deeds, hkl, hl, hdeeds, hworld, -, hok⟩ := hx w k hk hsince hn trivial
  rw [after_beside]
  refine ⟨l, deeds, hkl, hl, hdeeds, hworld, I.mono hkl hI, fun a s' ha => ?_⟩
  obtain ⟨w', hrun, -⟩ := exists_of_beside_ok ha
  exact hok a w' hrun

theorem PassesOn.lift {x : Act α} (hx : Act.Passes t task n Q x) :
    PassesOn t task n I Q (liftM x : ActOn σ α) := PassesOn.beside hx

theorem PassesOnFrom.within {part : σ → τ} {replace : σ → τ → σ} {x : ActOn τ α} {s : σ × World}
    (hx : PassesOnFrom t task n J Q x (part s.1, s.2)) (hpart : ∀ k, I.At k s.1 → J.At k (part s.1))
    (hreplace : ∀ k v, I.At k s.1 → J.At k v → I.At k (replace s.1 v)) :
    PassesOnFrom t task n I Q (ActOn.within part replace x) s := by
  intro k hk hsince hn hI
  obtain ⟨l, deeds, hkl, hl, hdeeds, hworld, hJ, hok⟩ := hx k hk hsince hn (hpart k hI)
  rw [after_within]
  refine ⟨l, deeds, hkl, hl, hdeeds, hworld, hreplace l _ (I.mono hkl hI) hJ, fun a s' ha => ?_⟩
  obtain ⟨v, w', hrun, -⟩ := exists_of_within_ok ha
  exact hok a (v, w') hrun

theorem PassesOn.current : PassesOn t task n I I (ActOn.current : ActOn σ σ) :=
  fun _ => .of_still rfl fun _ _ _ _ hI ha => by cases ha; exact hI

/-- An operation that looks at the value first. -/
theorem PassesOnFrom.of_current {f : σ → ActOn σ α} {s : σ × World}
    (hf : ∀ k, n ≤ k → I.At k s.1 → PassesOnFrom t task k I Q (f s.1) s) :
    PassesOnFrom t task n I Q (ActOn.current >>= f) s :=
  .of_state fun k hk hI => .of_eq rfl (hf k hk hI)

theorem PassesOn.become {s : σ} (hs : I.At n s) : PassesOn t task n I .any (ActOn.become s) :=
  fun _ k hk _ hn _ => ⟨k, [], k.le_refl, hk, trivial, rfl, I.mono hn hs, fun _ _ _ => trivial⟩

theorem PassesOnFrom.ofActOn {wrap : Fault → SessionError} {x : ActOn σ α} {s : σ × World}
    (hx : PassesOnFrom t task n I Q x s) :
    PassesOnFrom t task n I Q (Step.ofActOn wrap x) s := by
  intro k hk hsince hn hI
  obtain ⟨l, deeds, hkl, hl, hdeeds, hworld, hI', hok⟩ := hx k hk hsince hn hI
  rw [after_ofActOn]
  exact ⟨l, deeds, hkl, hl, hdeeds, hworld, hI', fun a s' ha => hok a s' (ok_of_ofActOn_ok ha)⟩

theorem PassesOn.ofActOn {wrap : Fault → SessionError} {x : ActOn σ α}
    (hx : PassesOn t task n I Q x) : PassesOn t task n I Q (Step.ofActOn wrap x) :=
  fun s => PassesOnFrom.ofActOn (hx s)

theorem PassesOn.liftStep {x : Act α} (hx : Act.Passes t task n Q x) :
    PassesOn t task n I Q (liftM x : Step σ α) := PassesOn.ofActOn (PassesOn.beside hx)

theorem PassesOnFrom.liftActOn {x : ActOn σ α} {s : σ × World} (hx : PassesOnFrom t task n I Q x s) :
    PassesOnFrom t task n I Q (liftM x : Step σ α) s := PassesOnFrom.ofActOn hx

theorem PassesOn.here : PassesOn t task n I I (Step.here : Step σ σ) :=
  fun _ => .of_still rfl fun _ _ _ _ hI ha => by cases ha; exact hI

/-- A step that looks at the session first. -/
theorem PassesOnFrom.of_here {f : σ → Step σ α} {s : σ × World}
    (hf : ∀ k, n ≤ k → I.At k s.1 → PassesOnFrom t task k I Q (f s.1) s) :
    PassesOnFrom t task n I Q (Step.here >>= f) s :=
  .of_state fun k hk hI => .of_eq rfl (hf k hk hI)

theorem PassesOn.update {f : σ → σ} (hf : ∀ k s, n ≤ k → I.At k s → I.At k (f s)) :
    PassesOn t task n I .any (Step.update f) :=
  fun s k hk _ hn hI =>
    ⟨k, [], k.le_refl, hk, trivial, rfl, hf k s.1 hn hI, fun _ _ _ => trivial⟩

theorem PassesOn.found {e : SessionError} {o : Option α} (ho : ∀ a, o = some a → Q.At n a) :
    PassesOn t task n I Q (Step.found e o : Step σ α) := by
  cases o with
  | none => exact .throw e
  | some a => exact .pure (ho a rfl)

/-- A step that looks something up first. -/
theorem PassesOnFrom.of_found {x : Step σ α} {f : α → Step σ β} {s : σ × World} {e : SessionError}
    {o : Option α} (hx : x s = Step.found e o s)
    (hf : ∀ a, o = some a → PassesOnFrom t task n I R (f a) s) :
    PassesOnFrom t task n I R (x >>= f) s := by
  have heq : (x >>= f) s = (Step.found e o >>= f) s := by
    simp only [bind, EStateM.bind, hx]
  refine .of_eq heq ?_
  cases o with
  | none => exact Passes.throw e s
  | some a => exact hf a rfl

end Lifts

/-! ## Caches -/

namespace Cache

variable {t : Trait} {task : Task} {n : Names}

theorem passes_newRoot (path : String) (channel : Channel) (interval : Duration) :
    Act.Passes t task n t.toEnduring (newRoot path channel interval) := by
  intro w k hk hsince _ _
  have hnext : k.next = w.fresh := hk
  refine ⟨k.withRoot path channel interval, [.event .newNode], k.le_withRoot .., ?_,
    ⟨trivial, trivial⟩, rfl, trivial, fun c w' hc => ?_⟩
  · exact congrArg (· + 1) hnext
  · cases hc
    rw [← hnext]
    exact t.root hsince

theorem passes_newChild {parent : Cache} (h : t.At n parent) (key : String) :
    Act.Passes t task n t.toEnduring (newChild parent key) := by
  intro w k hk hsince hn _
  have hnext : k.next = w.fresh := hk
  refine ⟨k.withName, [.event .newNode], k.le_upTo _, congrArg (· + 1) hnext, ⟨trivial, trivial⟩,
    rfl, trivial, fun c w' hc => ?_⟩
  cases hc
  rw [← hnext]
  exact t.child hsince (t.mono hn h)

theorem passes_value {c : Cache} (hc : t.At n c) : Act.Passes t task n .any c.value :=
  .of_plays (plays_value (Task.cacheUsed (t.known hc)))

theorem passes_refresh {c : Cache} (hc : t.At n c) (hrefetches : task.refetches c.top) :
    Act.Passes t task n .any c.refresh :=
  .of_plays (plays_refresh (Task.cacheRefetched (t.known hc) hrefetches))

theorem passes_patch {c : Cache} (hc : t.At n c) {f : Json → Json} (hpatches : task.patches c f) :
    Act.Passes t task n .any (c.patch f) :=
  .of_plays (plays_patch c f fun _ => ⟨t.known hc, hpatches⟩)

theorem passes_perform {c : Cache} (hc : t.At n c) {operation : Operation}
    (h : operation.refetches = true → task.refetches c.top) :
    Act.Passes t task n .any (c.perform operation) :=
  .of_plays (plays_perform (Task.cacheUsed (t.known hc)) fun hop =>
    Task.cacheRefetched (t.known hc) (h hop))

end Cache

end LightBridge
