import LightBridge.Proofs.Change.WriteBack

/-!
# Changes that take turns

Several changes begin, are added to and are committed in any order, and anything else may happen in
between. While they all are about one cached state object, and nothing but their commits touches its
root, that object is what the acknowledged bodies have left of it, in the order of the commits.
-/

namespace LightBridge

namespace Change

open Setter (Built)

/-! ## Turns -/

/-- Begins a change of what a cache stands for, with its present value as the last known state. -/
def begun (channel : Channel) (path : String) (cache : Cache) : Act Change := do
  let baseline ← cache.value
  pure (start channel path baseline (some cache))

/-- The body that a commit writes, when it answers that all was acknowledged. -/
def acknowledged? (c : Change) (w : World) : Option Fields :=
  if (outcome c.commit w).toOption = some true then c.body? else none

/-- The changes that are not yet committed, by name, and the world. -/
structure Desk where
  changes : Table String Change
  world : World

/-- A turn of several changes: one of them begins, gets a further setting or is committed, or
something else happens to the world. -/
inductive Turn where
  | begin (name : String) (channel : Channel) (path : String) (cache : Cache)
  | set (name : String) (s : Setter)
  | commit (name : String)
  | meanwhile (e : Event)

namespace Desk

/-- The changes and the world after a turn. -/
def turn (d : Desk) : Turn → Desk
  | .begin name channel path cache =>
    match begun channel path cache d.world with
    | .ok c w => ⟨d.changes.set name c, w⟩
    | .error _ w => ⟨d.changes, w⟩
  | .set name s =>
    match d.changes.get? name with
    | some c => ⟨d.changes.set name (c.set s), d.world⟩
    | none => d
  | .commit name =>
    match d.changes.get? name with
    | some c => ⟨d.changes.erase name, after c.commit d.world⟩
    | none => d
  | .meanwhile e => ⟨d.changes, d.world.step e⟩

/-- The changes and the world after several turns, in order. -/
def turns (d : Desk) (ts : List Turn) : Desk := ts.foldl turn d

/-- The body that is written in a turn. -/
def written? (d : Desk) : Turn → Option Fields
  | .commit name => (d.changes.get? name).bind (·.acknowledged? d.world)
  | _ => none

/-- The bodies that are written in several turns, in order. -/
def written : Desk → List Turn → List Fields
  | _, [] => []
  | d, t :: rest => (d.written? t).toList ++ (d.turn t).written rest

/-- Whether a turn is about the state object at a place: changes begin with what a live cache holds
of it, without a fetch, and are committed while that cache is live; nothing else touches the root. -/
def Shares (root : NodeId) (keys : List String) (d : Desk) : Turn → Prop
  | .begin _ _ _ cache =>
    cache.rootNode = root ∧ cache.keys = keys ∧ cache.Live d.world ∧ cache.Fresh d.world
  | .set .. => True
  | .commit name => ∀ cache ∈ (d.changes.get? name).bind (·.cache), cache.Live d.world
  | .meanwhile e => e.Spares root

/-- Every one of several turns is about the state object at a place. -/
def SharesAll (root : NodeId) (keys : List String) : Desk → List Turn → Prop
  | _, [] => True
  | d, t :: rest => d.Shares root keys t ∧ SharesAll root keys (d.turn t) rest

instance (root : NodeId) (keys : List String) (d : Desk) : (t : Turn) → Decidable (d.Shares root keys t)
  | .begin _ _ _ cache =>
    inferInstanceAs (Decidable (cache.rootNode = root ∧ cache.keys = keys ∧ cache.Live d.world ∧
      cache.Fresh d.world))
  | .set .. => isTrue trivial
  | .commit name =>
    inferInstanceAs (Decidable (∀ cache ∈ (d.changes.get? name).bind (·.cache), cache.Live d.world))
  | .meanwhile e => inferInstanceAs (Decidable (e.Spares root))

def decideSharesAll (root : NodeId) (keys : List String) :
    (d : Desk) → (ts : List Turn) → Decidable (d.SharesAll root keys ts)
  | _, [] => isTrue trivial
  | d, t :: rest =>
    have := decideSharesAll root keys (d.turn t) rest
    inferInstanceAs (Decidable (d.Shares root keys t ∧ SharesAll root keys (d.turn t) rest))

instance (root : NodeId) (keys : List String) (d : Desk) (ts : List Turn) :
    Decidable (d.SharesAll root keys ts) := decideSharesAll root keys d ts

end Desk

/-- The settings that turns add to the change of a name, in order. -/
def settings (name : String) (ts : List Turn) : List Setter :=
  ts.filterMap fun
    | .set other s => if other = name then some s else none
    | _ => none

/-- Whether the change of a name begins or is committed in a turn. -/
def Turn.bounds (name : String) : Turn → Bool
  | .begin other .. | .commit other => other = name
  | _ => false

/-- A state after writes, in order. -/
def settled (bodies : List Fields) (state : Fields) : Fields :=
  bodies.foldl (fun state body => patched body state) state

/-- The value that several writes leave in a field: the last one that has the field decides. -/
def lastWritten? (bodies : List Fields) (key : String) : Option Json :=
  (bodies.filterMap fun body => Fields.value? body key).getLast?

theorem value?_settled {bodies : List Fields} (h : ∀ body ∈ bodies, Built body) (state : Fields)
    {key : String} (hkey : key ≠ "colormode") (hlasting : Lasting key) :
    Fields.value? (settled bodies state) key =
      (lastWritten? bodies key).or (Fields.value? state key) := by
  induction bodies generalizing state with
  | nil => rfl
  | cons body rest ih =>
    have hbody := h body List.mem_cons_self
    have hrest := ih (fun b hb => h b (List.mem_cons_of_mem _ hb)) (patched body state)
    show Fields.value? (settled rest (patched body state)) key = _
    rw [hrest, value?_patched_of_lasting hbody.distinct state hkey hlasting]
    have hlast : lastWritten? (body :: rest) key =
        (lastWritten? rest key).or (Fields.value? body key) :=
      Setter.getLast?_filterMap_cons (fun body : Fields => Fields.value? body key) body rest
    rw [hlast, Option.or_assoc]

/-! ## What turns keep -/

variable {root : NodeId} {keys : List String} {state : Fields}

theorem acknowledged?_of_ne {c : Change} {w : World} (h : outcome c.commit w ≠ .ok true) :
    c.acknowledged? w = none := by
  rw [acknowledged?, if_neg]
  exact fun htrue => h (eq_ok_of_toOption htrue)

theorem acknowledged?_of_ok {c : Change} {w : World} (h : outcome c.commit w = .ok true) :
    c.acknowledged? w = c.body? := by
  rw [acknowledged?, h]
  rfl

/-- After a commit its cache stands for the state object as the acknowledged body leaves it. -/
theorem view_after_commit {c : Change} {cache : Cache} {w : World} (hcache : c.cache = some cache)
    (hview : cache.view w = .ok (.object state)) :
    cache.view (after c.commit w) = .ok (.object (settled (c.acknowledged? w).toList state)) := by
  by_cases hok : outcome c.commit w = .ok true
  · rw [acknowledged?_of_ok hok]
    cases hbody : c.body? with
    | none =>
      rw [after_of_ok (commit_of_idle hbody w)]
      exact hview
    | some body =>
      obtain ⟨s, hroot, hat, hheld, hset⟩ := commit_patches hbody hok hcache hview
      exact (Cache.replaced_of_set hview hroot hat hheld hset).self
  · have hsame := sameCaches_of_not_patched (.inr hok)
    rw [acknowledged?_of_ne hok, Cache.view_congr hsame.held hsame.snapshots]
    exact hview

theorem built_acknowledged {c : Change} {w : World} (h : Built c.request) :
    ∀ body ∈ (c.acknowledged? w).toList, Built body := by
  intro body hbody
  rw [Option.mem_toList, acknowledged?] at hbody
  split at hbody
  · exact built_body h hbody
  · nomatch hbody

namespace Desk

/-- The root holds the state object, and every change stands for that object. -/
structure Serves (root : NodeId) (keys : List String) (state : Fields) (d : Desk) : Prop where
  cached : ∃ s, d.world.snapshots.get? root = some s ∧ s.value.at? keys = some (.object state)
  changes : d.changes.All fun c => Built c.request ∧
    ∃ cache, c.cache = some cache ∧ cache.rootNode = root ∧ cache.keys = keys

theorem view_of_serves {d : Desk} (h : d.Serves root keys state) {cache : Cache}
    (hroot : cache.rootNode = root) (hkeys : cache.keys = keys) (hlive : cache.Live d.world) :
    cache.view d.world = .ok (.object state) := by
  rw [Cache.view_eq_ok_iff, hroot, hkeys]
  exact ⟨hlive, h.cached⟩

theorem turn_begin {d : Desk} (h : d.Serves root keys state) {name path : String}
    {channel : Channel} {cache : Cache}
    (hshares : d.Shares root keys (.begin name channel path cache)) :
    d.turn (.begin name channel path cache) =
      ⟨d.changes.set name (start channel path (.object state) (some cache)), d.world⟩ := by
  obtain ⟨hroot, hkeys, hlive, hfresh⟩ := hshares
  have hview := view_of_serves h hroot hkeys hlive
  have hvalue : cache.value d.world = .ok (.object state) d.world := by
    rw [Cache.value_of_fresh hfresh, Cache.peek_eq, hview]
    rfl
  have hbegun : begun channel path cache d.world =
      .ok (start channel path (.object state) (some cache)) d.world := by
    unfold begun
    simp only [bind, EStateM.bind, hvalue]
    rfl
  simp only [turn, hbegun]

/-- A turn leaves the state object as the body that is written in it does. -/
theorem serves_turn {d : Desk} (h : d.Serves root keys state) {t : Turn}
    (hshares : d.Shares root keys t) :
    (d.turn t).Serves root keys (settled (d.written? t).toList state) ∧
      ∀ body ∈ (d.written? t).toList, Built body := by
  cases t with
  | begin name channel path cache =>
    have hstart : Built (start channel path (.object state) (some cache)).request :=
      Setter.built_nil
    rw [turn_begin h hshares]
    refine ⟨⟨h.cached, h.changes.set name ⟨hstart, cache, rfl, hshares.1, hshares.2.1⟩⟩, ?_⟩
    simp [written?]
  | set name s =>
    refine ⟨?_, by simp [written?]⟩
    rw [turn]
    cases hc : d.changes.get? name with
    | none => exact h
    | some c =>
      obtain ⟨hbuilt, hcache⟩ := h.changes name c hc
      exact ⟨h.cached, h.changes.set name ⟨hbuilt.apply s, hcache⟩⟩
  | commit name =>
    rw [turn, written?]
    cases hc : d.changes.get? name with
    | none => exact ⟨h, by simp⟩
    | some c =>
      obtain ⟨hbuilt, cache, hcache, hroot, hkeys⟩ := h.changes name c hc
      have hlive : cache.Live d.world := hshares cache (by rw [hc, Option.bind_some, hcache]; rfl)
      -- only here the object moves on, and the cache is live, so it reads what is there afterwards
      have hview := view_after_commit hcache (view_of_serves h hroot hkeys hlive)
      obtain ⟨-, hcached⟩ := Cache.view_eq_ok_iff.mp hview
      rw [hroot, hkeys] at hcached
      exact ⟨⟨hcached, h.changes.erase name⟩, built_acknowledged hbuilt⟩
  | meanwhile e =>
    refine ⟨⟨?_, h.changes⟩, by simp [written?]⟩
    obtain ⟨s, hs, hat⟩ := h.cached
    exact ⟨s, (World.snapshots_step hshares d.world).trans hs, hat⟩

/-- Turns leave the state object as the bodies that are written in them do. -/
theorem serves_turns {d : Desk} (h : d.Serves root keys state) {ts : List Turn}
    (hshares : d.SharesAll root keys ts) :
    (d.turns ts).Serves root keys (settled (d.written ts) state) ∧
      ∀ body ∈ d.written ts, Built body := by
  -- the object that the first turn leaves is the one that the rest begins with
  induction ts generalizing d state with
  | nil => exact ⟨h, by simp [written]⟩
  | cons t rest ih =>
    obtain ⟨hfirst, hbuilt⟩ := serves_turn h hshares.1
    obtain ⟨hrest, hbuilt'⟩ := ih hfirst hshares.2
    have hsettled : settled (d.written (t :: rest)) state =
        settled ((d.turn t).written rest) (settled (d.written? t).toList state) := by
      rw [written, settled, List.foldl_append]
      rfl
    rw [hsettled]
    refine ⟨hrest, fun body hbody => ?_⟩
    rw [written, List.mem_append] at hbody
    exact hbody.elim (hbuilt body) (hbuilt' body)

theorem sharesAll_append {d : Desk} {first second : List Turn} :
    d.SharesAll root keys (first ++ second) ↔
      d.SharesAll root keys first ∧ (d.turns first).SharesAll root keys second := by
  induction first generalizing d with
  | nil => simp [SharesAll, turns]
  | cons t rest ih =>
    rw [List.cons_append, SharesAll, SharesAll, ih, and_assoc]
    rfl

/-- Between its begin and its commit a change only gets its own settings. -/
theorem change_after_turn {d : Desk} {name : String} {c : Change}
    (h : d.changes.get? name = some c) {t : Turn} (ht : t.bounds name = false) :
    (d.turn t).changes.get? name = some (c.setAll (settings name [t])) := by
  cases t with
  | begin other channel path cache =>
    have hne : name ≠ other := by simpa [Turn.bounds, eq_comm] using ht
    rw [turn]
    cases begun channel path cache d.world with
    | ok c' w => exact (Table.get?_set_of_ne _ _ hne).trans h
    | error e w => exact h
  | set other s =>
    by_cases hsame : other = name
    · subst hsame
      have hset : settings other [.set other s] = [s] := by simp [settings]
      rw [turn, h, hset]
      exact Table.get?_set_self _ _ _
    · have hset : settings name [.set other s] = [] := by simp [settings, hsame]
      rw [turn, hset]
      cases d.changes.get? other with
      | none => exact h
      | some c' => exact (Table.get?_set_of_ne _ _ (Ne.symm hsame)).trans h
  | commit other =>
    have hne : name ≠ other := by simpa [Turn.bounds, eq_comm] using ht
    rw [turn]
    cases d.changes.get? other with
    | none => exact h
    | some c' =>
      have herase := Table.get?_erase d.changes other name
      rw [if_neg hne] at herase
      exact herase.trans h
  | meanwhile e => exact h

theorem change_after_turns {d : Desk} {name : String} {c : Change}
    (h : d.changes.get? name = some c) {ts : List Turn} (hts : ∀ t ∈ ts, t.bounds name = false) :
    (d.turns ts).changes.get? name = some (c.setAll (settings name ts)) := by
  induction ts generalizing d c with
  | nil => exact h
  | cons t rest ih =>
    have hfirst := change_after_turn h (hts t List.mem_cons_self)
    have hrest := ih hfirst fun t' ht' => hts t' (List.mem_cons_of_mem t ht')
    have hsettings : settings name (t :: rest) = settings name [t] ++ settings name rest :=
      List.filterMap_append (l := [t])
    have hall : c.setAll (settings name (t :: rest)) =
        (c.setAll (settings name [t])).setAll (settings name rest) := by
      rw [hsettings, setAll, List.foldl_append]
      rfl
    rw [hall]
    exact hrest

end Desk

end Change

end LightBridge
