import LightBridge.Cache.Operation
import LightBridge.Proofs.Play

/-!
# What caches, and changes of cached states, do to a world

A cache sends through the channel of its root only, and only to fetch what its root serves. Nothing
it does opens a connection.
-/

namespace LightBridge

variable {p : Scope}

namespace Cache

/-- A cache fetches through a channel in `C`. -/
def Over (C : Channel → Prop) (c : Cache) : Prop := C c.rootChannel

variable {α : Type}

theorem Over.used {c : Cache} (h : c.Over p.channel) : c.Used p.Admits := fun _ _ => h

theorem Over.refetched {c : Cache} (h : c.Over p.channel) : c.Refetched p.Admits := fun _ => h

theorem plays_newRoot {P : World → Deed → Prop} (hP : AdmitsIdle P) (path : String)
    (channel : Channel) (interval : Duration) :
    Act.Plays P (fun c => ∃ node, c = .root node path channel interval)
      (newRoot path channel interval) :=
  Act.plays_of_step (fun _ => .newNode) hP.newNode (fun _ => rfl) fun w _ _ ha => by
    cases ha
    exact ⟨w.fresh, rfl⟩

theorem plays_newChild {P : World → Deed → Prop} (hP : AdmitsIdle P) (parent : Cache)
    (key : String) :
    Act.Plays P (fun c => ∃ node, c = .child parent node key) (newChild parent key) :=
  Act.plays_of_step (fun _ => .newNode) hP.newNode (fun _ => rfl) fun w _ _ ha => by
    cases ha
    exact ⟨w.fresh, rfl⟩

theorem after_requireHeld (parent : Cache) (path : String) (w : World) :
    after (requireHeld parent path) w = w := by
  unfold after requireHeld
  cases w.holds parent.node <;> rfl

theorem plays_requireHeld {P : World → Deed → Prop} (parent : Cache) (path : String) :
    Act.Plays P (fun _ => True) (requireHeld parent path) :=
  .of_still (after_requireHeld parent path) fun _ _ _ _ _ => trivial

theorem after_rootValue (node : NodeId) (path : String) (w : World) :
    after (rootValue node path) w = w := by
  unfold after rootValue
  cases w.snapshots.get? node <;> rfl

theorem plays_rootValue {P : World → Deed → Prop} (node : NodeId) (path : String) :
    Act.Plays P (fun _ => True) (rootValue node path) :=
  .of_still (after_rootValue node path) fun _ _ _ _ _ => trivial

theorem plays_refresh {P : World → Deed → Prop} {c : Cache} (hc : c.Refetched P) :
    Act.Plays P (fun _ => True) c.refresh := by
  induction c with
  | root node path channel interval =>
    exact Act.plays_of_enact (fun _ => fetching (.root node path channel interval)) hc
      (fun _ => rfl) fun _ _ _ _ => trivial
  | child parent node key ih => exact (plays_requireHeld _ _).andThen (ih hc)

theorem plays_needsRefresh {P : World → Deed → Prop} (c : Cache) :
    Act.Plays P (fun _ => True) c.needsRefresh := by
  induction c with
  | root node path channel interval => exact .of_still (fun _ => rfl) fun _ _ _ _ _ => trivial
  | child parent node key ih => exact (plays_requireHeld _ _).andThen ih

theorem value_root (node : NodeId) (path : String) (channel : Channel) (interval : Duration)
    (w : World) :
    (root node path channel interval).value w =
      if isStale interval (w.snapshots.get? node) w.now then
        (fetch node path channel >>= fun _ => rootValue node path) w
      else rootValue node path w := by
  rw [value]
  simp only [bind, EStateM.bind, needsRefresh]
  cases isStale interval (w.snapshots.get? node) w.now <;> rfl

/-- Reading fetches what is stale. -/
theorem plays_value {P : World → Deed → Prop} {c : Cache} (hc : c.Used P) :
    Act.Plays P (fun _ => True) c.value := by
  induction c with
  | root node path channel interval =>
    intro w _
    cases hstale : isStale interval (w.snapshots.get? node) w.now with
    | false =>
      refine ⟨[], trivial, ?_, trivial, fun _ _ _ => trivial⟩
      rw [after, value_root, hstale, if_neg Bool.false_ne_true]
      exact after_rootValue node path w
    | true =>
      refine ⟨[.fetch node path channel interval], ⟨hc w hstale, trivial⟩, ?_, trivial,
        fun _ _ _ => trivial⟩
      rw [after, value_root, hstale, if_pos rfl]
      exact after_bind_of_still (fun _ => after_rootValue node path) w
  | child parent node key ih =>
    exact (plays_requireHeld _ _).andThen ((ih hc).bind fun v _ =>
      Act.plays_ofExcept _ fun _ _ => trivial)

theorem plays_peek {P : World → Deed → Prop} (c : Cache) : Act.Plays P (fun _ => True) c.peek := by
  induction c with
  | root node path channel interval => exact plays_rootValue node path
  | child parent node key ih =>
    exact (plays_requireHeld _ _).andThen (ih.bind fun v _ =>
      Act.plays_ofExcept _ fun _ _ => trivial)

theorem plays_interval {P : World → Deed → Prop} (c : Cache) :
    Act.Plays P (fun _ => True) c.interval := by
  induction c with
  | root node path channel interval => exact .pure _ trivial
  | child parent node key ih => exact (plays_requireHeld _ _).andThen ih

theorem plays_fetchedAt {P : World → Deed → Prop} (c : Cache) :
    Act.Plays P (fun _ => True) c.fetchedAt := by
  induction c with
  | root node path channel interval => exact .of_still (fun _ => rfl) fun _ _ _ _ _ => trivial
  | child parent node key ih => exact (plays_requireHeld _ _).andThen ih

theorem plays_channel {P : World → Deed → Prop} (c : Cache) : Act.Plays P (fun _ => True) c.channel := by
  induction c with
  | root node path channel interval => exact .pure _ trivial
  | child parent node key ih => exact (plays_requireHeld _ _).andThen ih

theorem plays_patch {P : World → Deed → Prop} (c : Cache) (f : Json → Json)
    (hP : ∀ w, P w (.update c f)) : Act.Plays P (fun _ => True) (c.patch f) :=
  Act.plays_of_enact (fun _ => .update c f) hP (fun _ => rfl) fun _ _ _ _ => trivial

/-- Whether an operation fetches also what is not stale. -/
def Operation.refetches : Operation → Bool
  | .refresh => true
  | _ => false

theorem plays_perform {P : World → Deed → Prop} {c : Cache} (hc : c.Used P) {operation : Operation}
    (h : operation.refetches = true → c.Refetched P) :
    Act.Plays P (fun _ => True) (c.perform operation) := by
  cases operation with
  | value => exact (plays_value hc).map fun _ _ => trivial
  | peek => exact (plays_peek c).map fun _ _ => trivial
  | refresh => exact (plays_refresh (h rfl)).andThen (.pure _ trivial)
  | needsRefresh => exact (plays_needsRefresh c).map fun _ _ => trivial
  | interval => exact (plays_interval c).map fun _ _ => trivial
  | fetchedAt => exact (plays_fetchedAt c).map fun _ _ => trivial
  | username => exact (plays_channel c).map fun _ _ => trivial
  | path | isRoot | describe => exact .pure _ trivial

end Cache

end LightBridge
