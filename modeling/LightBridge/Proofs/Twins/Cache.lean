import LightBridge.Proofs.Cache.Play
import LightBridge.Proofs.Twins.Channel

/-!
# Caches side by side
-/

namespace LightBridge

variable {t : Twins} {n m : Nat}

namespace Cache

/-- The cache with other names. -/
def rename (r : Renaming) : Cache → Cache
  | .root node path channel interval => .root (r.name node) path (channel.rename r) interval
  | .child parent node key => .child (parent.rename r) (r.name node) key

/-- The cache, and all caches above it, belong to both runs. -/
def Within (t : Twins) (n : Nat) : Cache → Prop
  | .root node _ channel _ => t.Has n node ∧ channel.Within t n
  | .child parent node _ => parent.Within t n ∧ t.Has n node

theorem Within.mono {c : Cache} (h : c.Within t n) (hnm : n ≤ m) : c.Within t m := by
  induction c with
  | root node path channel interval => exact ⟨h.1.mono hnm, h.2.mono hnm⟩
  | child parent node key ih => exact ⟨ih h.1, h.2.mono hnm⟩

theorem rename_rename (r r' : Renaming) (c : Cache) :
    (c.rename r).rename r' = c.rename (r.andThen r') := by
  induction c with
  | root => rfl
  | child parent node key ih => rw [rename, rename, rename, ih]; rfl

instance : Named Cache where
  rename := rename
  Within := Within
  mono hnm h := h.mono hnm
  rename_rename := rename_rename

@[simp] theorem node_rename (r : Renaming) (c : Cache) : (c.rename r).node = r.name c.node := by
  cases c <;> rfl

@[simp] theorem path_rename (r : Renaming) (c : Cache) : (c.rename r).path = c.path := by
  induction c with
  | root => rfl
  | child parent node key ih => rw [rename, path, path, ih]

theorem isRoot_rename (r : Renaming) (c : Cache) : (c.rename r).isRoot = c.isRoot := by
  cases c <;> rfl

theorem describe_rename (r : Renaming) (c : Cache) : (c.rename r).describe = c.describe := by
  unfold describe
  rw [path_rename, isRoot_rename]

variable {c : Cache}

theorem Within.node (h : c.Within t n) : t.Has n c.node := by
  cases c with
  | root => exact h.1
  | child => exact h.2

theorem Within.rootNode (h : c.Within t n) : t.Has n c.rootNode := by
  induction c with
  | root => exact h.1
  | child parent node key ih => exact ih h.1

/-! ## Making caches -/

theorem alike_newRoot (path : String) {channel : Channel} (hchannel : channel.Within t n)
    (interval : Duration) :
    ActsAlike t n (.named t Cache) (newRoot path channel interval)
      (newRoot path (channel.rename t.across) interval) := by
  refine .intro fun w w' hn hworlds => ?_
  refine .quiet (u := w.step .newNode) ⟨?_, ?_⟩ (Nat.le_succ _) hworlds.newNode rfl rfl
  · rw [hworlds.fresh]
    rfl
  · exact ⟨hworlds.has_fresh, hchannel.mono (Nat.le_succ_of_le hn)⟩

theorem alike_newChild {parent : Cache} (hparent : parent.Within t n) (key : String) :
    ActsAlike t n (.named t Cache) (newChild parent key)
      (newChild (parent.rename t.across) key) := by
  refine .intro fun w w' hn hworlds => ?_
  refine .quiet (u := w.step .newNode) ⟨?_, ?_⟩ (Nat.le_succ _) hworlds.newNode rfl rfl
  · rw [hworlds.fresh]
    rfl
  · exact ⟨hparent.mono (Nat.le_succ_of_le hn), hworlds.has_fresh⟩

/-! ## Reading -/

theorem alike_requireHeld {parent : Cache} (hparent : parent.Within t n) (path : String) :
    ActsAlike t n .any (requireHeld parent path) (requireHeld (parent.rename t.across) path) := by
  refine .intro fun w w' _ hworlds => ?_
  have hholds : w'.holds (parent.rename t.across).node = w.holds parent.node := by
    rw [node_rename]
    exact hworlds.holds parent.node hparent.node.1
  simp only [requireHeld, hholds]
  cases w.holds parent.node with
  | true => exact .still trivial hworlds
  | false => exact .refused (fun h => by cases h) hworlds

theorem alike_fetch {node : NodeId} (hnode : t.Has n node) (path : String) {channel : Channel}
    (hchannel : channel.Within t n) :
    ActsAlike t n .any (fetch node path channel)
      (fetch (t.across.name node) path (channel.rename t.across)) := by
  refine (Channel.alike_request hchannel .get path (.object [])).bind fun m reply _ hm h => ?_
  cases h
  refine (Act.alike_ofExcept (Q := .any) (fun _ _ => trivial) fun _ =>
    Reply.check_ne_timeOverflow).bind fun m' _ _ hm' _ => ?_
  refine ActsAlike.intro fun w w' hn hworlds => ?_
  -- the reply is stored with the instant, which both have
  have hnode := hnode.mono (Nat.le_trans hm (Nat.le_trans hm' hn))
  have hreply : (⟨reply, w'.now⟩ : Snapshot) = ⟨reply, w.now⟩ := by rw [hworlds.now]
  exact .quiet trivial (Nat.le_refl _) (hworlds.setSnapshot hnode hreply) rfl rfl

theorem alike_rootValue {node : NodeId} (hnode : t.Has n node) (path : String) :
    ActsAlike t n (.same Json) (rootValue node path) (rootValue (t.across.name node) path) := by
  refine .intro fun w w' _ hworlds => ?_
  simp only [rootValue, hworlds.snapshots node hnode.1]
  cases w.snapshots.get? node with
  | none => exact .refused (fun h => by cases h) hworlds
  | some s => exact .still rfl hworlds

theorem field_ne_timeOverflow {path key : String} {v : Json} {e : Fault}
    (h : field path key v = .error e) : e ≠ .timeOverflow := by
  unfold field at h
  split at h
  · cases h
  · cases h
    exact Fault.noConfusion

theorem alike_refresh (hc : c.Within t n) :
    ActsAlike t n .any c.refresh (c.rename t.across).refresh := by
  induction c with
  | root node path channel interval => exact alike_fetch hc.1 path hc.2
  | child parent node key ih =>
    rw [rename, refresh, refresh, path, path, path_rename]
    exact (alike_requireHeld hc.1 _).andThen (ih hc.1)

theorem alike_needsRefresh (hc : c.Within t n) :
    ActsAlike t n (.same Bool) c.needsRefresh (c.rename t.across).needsRefresh := by
  induction c with
  | root node path channel interval =>
    refine .intro fun w w' _ hworlds => ?_
    simp only [rename, needsRefresh, hworlds.snapshots node hc.1.1, hworlds.now]
    exact .still rfl hworlds
  | child parent node key ih =>
    rw [rename, needsRefresh, needsRefresh, path, path, path_rename]
    exact (alike_requireHeld hc.1 _).andThen (ih hc.1)

theorem alike_value (hc : c.Within t n) :
    ActsAlike t n (.same Json) c.value (c.rename t.across).value := by
  induction c with
  | root node path channel interval =>
    rw [rename, value, value]
    refine (alike_needsRefresh (c := .root node path channel interval) hc).bind
      fun m stale _ hm h => ?_
    cases h
    -- both find the root stale or neither does
    cases stale with
    | false => exact alike_rootValue (hc.1.mono hm) path
    | true =>
      exact (alike_fetch (hc.1.mono hm) path (hc.2.mono hm)).andThen
        (alike_rootValue (hc.1.mono hm) path)
  | child parent node key ih =>
    rw [rename, value, value, path, path, path_rename]
    refine (alike_requireHeld hc.1 _).andThen ((ih hc.1).bind fun m v _ _ h => ?_)
    cases h
    exact Act.alike_ofExcept (fun _ _ => rfl) fun _ => field_ne_timeOverflow

theorem alike_peek (hc : c.Within t n) :
    ActsAlike t n (.same Json) c.peek (c.rename t.across).peek := by
  induction c with
  | root node path channel interval => exact alike_rootValue hc.1 path
  | child parent node key ih =>
    rw [rename, peek, peek, path, path, path_rename]
    refine (alike_requireHeld hc.1 _).andThen ((ih hc.1).bind fun m v _ _ h => ?_)
    cases h
    exact Act.alike_ofExcept (fun _ _ => rfl) fun _ => field_ne_timeOverflow

theorem alike_interval (hc : c.Within t n) :
    ActsAlike t n (.same Duration) c.interval (c.rename t.across).interval := by
  induction c with
  | root node path channel interval => exact .pure rfl
  | child parent node key ih =>
    rw [rename, interval, interval, path, path, path_rename]
    exact (alike_requireHeld hc.1 _).andThen (ih hc.1)

theorem alike_fetchedAt (hc : c.Within t n) :
    ActsAlike t n (.same (Option Instant)) c.fetchedAt (c.rename t.across).fetchedAt := by
  induction c with
  | root node path channel interval =>
    refine .intro fun w w' _ hworlds => ?_
    simp only [rename, fetchedAt, hworlds.snapshots node hc.1.1]
    exact .still rfl hworlds
  | child parent node key ih =>
    rw [rename, fetchedAt, fetchedAt, path, path, path_rename]
    exact (alike_requireHeld hc.1 _).andThen (ih hc.1)

theorem alike_channel (hc : c.Within t n) :
    ActsAlike t n (.named t Channel) c.channel (c.rename t.across).channel := by
  induction c with
  | root node path channel interval => exact .pure ⟨rfl, hc.2⟩
  | child parent node key ih =>
    rw [rename, channel, channel, path, path, path_rename]
    exact (alike_requireHeld hc.1 _).andThen (ih hc.1)

/-! ## Patching -/

theorem onField_ne_timeOverflow {path key : String} {f : Json → Except Fault Json}
    (hf : ∀ v e, f v = .error e → e ≠ .timeOverflow) (v : Json) (e : Fault)
    (h : onField path key f v = .error e) : e ≠ .timeOverflow := by
  unfold onField at h
  split at h
  · split at h
    · rename_i value _
      cases hvalue : f value with
      | ok u =>
        rw [hvalue] at h
        cases h
      | error e' =>
        rw [hvalue] at h
        cases h
        exact hf value _ hvalue
    · cases h
      exact Fault.noConfusion
  · cases h
    exact Fault.noConfusion

theorem alike_patchWith (hc : c.Within t n) {f : Json → Except Fault Json}
    (hf : ∀ v e, f v = .error e → e ≠ .timeOverflow) :
    ActsAlike t n .any (c.patchWith f) ((c.rename t.across).patchWith f) := by
  -- what is done to the root is wrapped once more at every cache below it
  induction c generalizing f with
  | root node path channel interval =>
    refine .intro fun w w' hn hworlds => ?_
    simp only [rename, patchWith, patchRoot, hworlds.snapshots node hc.1.1]
    cases w.snapshots.get? node with
    | none => exact .refused (fun h => by cases h) hworlds
    | some s =>
      dsimp only
      cases hvalue : f s.value with
      | error e => exact .refused (fun he => absurd he (hf _ _ hvalue)) hworlds
      | ok value =>
        exact .quiet trivial (Nat.le_refl _) (hworlds.setSnapshot (hc.1.mono hn) rfl) rfl rfl
  | child parent node key ih =>
    rw [rename, patchWith, patchWith, path, path, path_rename]
    exact (alike_requireHeld hc.1 _).andThen (ih hc.1 (onField_ne_timeOverflow hf))

theorem alike_patch (hc : c.Within t n) (f : Json → Json) :
    ActsAlike t n .any (c.patch f) ((c.rename t.across).patch f) :=
  alike_patchWith hc nofun

/-! ## What can be asked -/

theorem alike_perform (hc : c.Within t n) (operation : Operation) :
    ActsAlike t n (.same Answer) (c.perform operation) ((c.rename t.across).perform operation) := by
  cases operation with
  | value => exact (alike_value hc).map fun _ _ _ _ h => congrArg _ h
  | peek => exact (alike_peek hc).map fun _ _ _ _ h => congrArg _ h
  | refresh => exact (alike_refresh hc).andThen (.pure rfl)
  | needsRefresh => exact (alike_needsRefresh hc).map fun _ _ _ _ h => congrArg _ h
  | interval => exact (alike_interval hc).map fun _ _ _ _ h => congrArg _ h
  | fetchedAt => exact (alike_fetchedAt hc).map fun _ _ _ _ h => congrArg _ h
  | username =>
    refine (alike_channel hc).map fun _ channel _ _ h => ?_
    obtain ⟨rfl, -⟩ := h
    rfl
  | path => exact .pure (congrArg _ (path_rename _ _))
  | isRoot => exact .pure (congrArg Answer.flag (isRoot_rename _ c))
  | describe => exact .pure (congrArg _ (describe_rename _ _))

end Cache

end LightBridge
