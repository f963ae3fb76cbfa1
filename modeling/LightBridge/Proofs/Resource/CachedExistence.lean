import LightBridge.Proofs.Resource.AllLights

/-!
# Existence without asking

Whether an id is known without asking the bridge is told from the state held and from the entries.
An entry is dropped by the operations of its own collection only, so when some other handle of the
root fetches a state without the id, its entry outlasts that state. While that lasts, an id counts as
known that the state held does not have; in all other cases the answer is that of the state.
-/

namespace LightBridge

namespace Collection

variable {ι : Type} [DecidableEq ι] [ResourceId ι]
variable {l : Collection ι} {s : Collection ι × World} {w : World} {id : ι}

/-! ## Answers -/

/-- What the state held has under the key of an id. -/
def slice? (l : Collection ι) (w : World) (id : ι) : Option Json :=
  (l.cache.place? w).bind (·.get? (ResourceId.key id))

omit [DecidableEq ι] in
theorem slice?_of_view {v : Json} (h : l.cache.view w = .ok v) :
    l.slice? w id = v.get? (ResourceId.key id) := by
  rw [slice?, (Cache.view_eq_ok_iff_place?.mp h).2]
  rfl

omit [ResourceId ι] in
theorem isPinned_eq_false (h : id ∉ l.pinned) : l.isPinned id = false := by
  rw [← Bool.not_eq_true, isPinned_iff]
  exact h

/-- An unpinned id has an entry, and the state held does not have it. -/
def Outlasts (s : Collection ι × World) (id : ι) : Prop :=
  id ∉ s.1.pinned ∧ s.1.isMaterialized id = true ∧ s.1.slice? s.2 id = none

instance (s : Collection ι × World) (id : ι) : Decidable (Outlasts s id) :=
  have : Decidable (s.1.slice? s.2 id = none) := decidable_of_iff _ Option.isNone_iff_eq_none
  inferInstanceAs (Decidable (_ ∧ _))

/-- Nothing is sent or changed to tell. -/
theorem existsCached?_of_view {v : Json} (hid : id ∉ l.pinned) (h : l.cache.view w = .ok v) :
    l.existsCached? id w =
      .ok (l.isMaterialized id || (v.get? (ResourceId.key id)).isSome) w := by
  rw [existsCached?, isPinned_eq_false hid, Bool.false_or]
  cases l.isMaterialized id with
  | true => rfl
  | false =>
    rw [if_neg Bool.false_ne_true, Bool.false_or]
    simp only [bind, EStateM.bind, Cache.peek_eq, h]
    rfl

/-- What is known is what the state held has, unless the id outlasts it. -/
theorem existsCached?_eq_iff {v : Json} (hid : id ∉ s.1.pinned) (h : s.1.cache.view s.2 = .ok v) :
    s.1.existsCached? id s.2 = .ok (v.get? (ResourceId.key id)).isSome s.2 ↔ ¬ Outlasts s id := by
  rw [existsCached?_of_view hid h, Outlasts, slice?_of_view h]
  cases s.1.isMaterialized id <;> cases v.get? (ResourceId.key id) <;> simp [hid]

/-- What the bridge is asked for is held right after it. -/
theorem view_of_exists? {b : Bool} {u : World} (hid : id ∉ l.pinned) (h : l.exists? id w = .ok b u) :
    ∃ v, l.cache.view u = .ok v ∧ b = (v.get? (ResourceId.key id)).isSome := by
  rw [exists?, isPinned_eq_false hid, if_neg Bool.false_ne_true] at h
  obtain ⟨v, u', hvalue, hrest⟩ := exists_of_bind_ok h
  cases hrest
  exact ⟨v, (Cache.view_of_value hvalue).1, rfl⟩

/-- What is told of an unpinned id without asking: now, and right after the bridge was asked. -/
structure Known (s : Collection ι × World) (id : ι) : Prop where
  now : ∀ v, s.1.cache.view s.2 = .ok v →
    s.1.existsCached? id s.2 =
      .ok (s.1.isMaterialized id || (v.get? (ResourceId.key id)).isSome) s.2 ∧
    (s.1.existsCached? id s.2 = .ok (v.get? (ResourceId.key id)).isSome s.2 ↔ ¬ Outlasts s id)
  asked : ∀ b u, s.1.exists? id s.2 = .ok b u →
    s.1.existsCached? id u = .ok (s.1.isMaterialized id || b) u ∧
    (s.1.existsCached? id u = .ok b u ↔ ¬ Outlasts (s.1, u) id)

theorem known_of_not_pinned (hid : id ∉ s.1.pinned) : Known s id where
  now _ h := ⟨existsCached?_of_view hid h, existsCached?_eq_iff hid h⟩
  asked b u h := by
    obtain ⟨v, hview, rfl⟩ := view_of_exists? hid h
    exact ⟨existsCached?_of_view hid hview, existsCached?_eq_iff (s := (s.1, u)) hid hview⟩

/-! ## Turns -/

/-- The collection with the entry of a resource that a bridge never reports. -/
def pin (l : Collection ι) (r : Resource ι) : Collection ι :=
  if l.isMaterialized r.id then l else { l.add r with pinned := r.id :: l.pinned }

/-- Somebody asks a collection, or an entry is pinned, or something else is done to the world, as by
any other handle of the same root. -/
inductive Turn (ι : Type) where
  | ask (operation : Operation ι)
  | pin (r : Resource ι)
  | elsewhere (d : Deed)

/-- The collection and the world after a turn. -/
def Turn.take (s : Collection ι × World) : Turn ι → Collection ι × World
  | .ask operation => after (perform operation) s
  | .pin r => (s.1.pin r, s.2)
  | .elsewhere d => (s.1, s.2.enact d)

/-- The collection and the world after several turns. -/
def takeAll (s : Collection ι × World) (turns : List (Turn ι)) : Collection ι × World :=
  turns.foldl Turn.take s

theorem takeAll_append (s : Collection ι × World) (first second : List (Turn ι)) :
    takeAll s (first ++ second) = takeAll (takeAll s first) second :=
  List.foldl_append

theorem takeAll_elsewhere (s : Collection ι × World) (deeds : List Deed) :
    takeAll s (deeds.map .elsewhere) = (s.1, s.2.enactAll deeds) := by
  induction deeds generalizing s with
  | nil => rfl
  | cons d rest ih => exact ih (s.1, s.2.enact d)

/-- An operation that at most pins an entry, and does something to the world, is a row of turns. -/
theorem exists_turns_of_pin {ε α : Type} {x : EStateM ε (Collection ι × World) α} {Q : α → Prop}
    (hplays : PlaysOn (fun _ _ => True) (Over fun _ => True) Q x)
    (hpin : (after x s).1 = s.1 ∨ ∃ r, (after x s).1 = s.1.pin r) :
    ∃ turns, after x s = takeAll s turns := by
  obtain ⟨deeds, -, hworld, -⟩ := hplays s s.1.over_all
  have hsplit : after x s = ((after x s).1, s.2.enactAll deeds) := Prod.ext rfl hworld
  rcases hpin with heq | ⟨r, heq⟩
  · refine ⟨deeds.map .elsewhere, ?_⟩
    rw [hsplit, takeAll_elsewhere, heq]
  · refine ⟨deeds.map .elsewhere ++ [.pin r], ?_⟩
    rw [hsplit, takeAll_append, takeAll_elsewhere, heq]
    rfl

/-! ## How an id comes to outlast the state -/

/-- A turn takes the key of an id from the state held, or it is a listing that finds the id under
another key only. -/
def Turn.Loses (s : Collection ι × World) (id : ι) (t : Turn ι) : Prop :=
  (s.1.slice? s.2 id).isSome = true ∧ (t.take s).1.slice? (t.take s).2 id = none ∨
  t = .ask .getAll ∧ ∃ fields, (t.take s).1.cache.view (t.take s).2 = .ok (.object fields) ∧
    Reports fields id ∧ Fields.has fields (ResourceId.key id) = false

/-- An unpinned id with an entry was unpinned and had an entry before. -/
def Stays (l l' : Collection ι) (id : ι) : Prop :=
  id ∉ l'.pinned → l'.isMaterialized id = true → id ∉ l.pinned ∧ l.isMaterialized id = true

omit [ResourceId ι] in
theorem Stays.refl (l : Collection ι) (id : ι) : Stays l l id := And.intro

omit [ResourceId ι] in
/-- Whether an entry is dropped, and its pin with it, makes no newcomers. -/
theorem Stays.filter {p : Resource ι → Bool} {pinned : List ι}
    (hpinned : ∀ r ∈ l.entries, r.id ∈ l.pinned → p r = true → r.id ∈ pinned) :
    Stays l { l with entries := l.entries.filter p, pinned } id := by
  intro hunpinned hentry
  obtain ⟨r, hr, rfl⟩ := isMaterialized_iff.mp hentry
  obtain ⟨hmem, hkept⟩ := List.mem_filter.mp hr
  exact ⟨fun h => hunpinned (hpinned r hmem h hkept), isMaterialized_iff.mpr ⟨r, hmem, rfl⟩⟩

theorem stays_pin (r : Resource ι) : Stays l (l.pin r) id := by
  unfold pin
  split
  · exact .refl l id
  · intro hunpinned hentry
    obtain ⟨hne, hpinned⟩ := not_or.mp (mt List.mem_cons.mpr hunpinned)
    have hold : r.id = id ∨ l.isMaterialized id = true := isMaterialized_add.mp hentry
    exact ⟨hpinned, hold.resolve_left (Ne.symm hne)⟩

theorem stays_remove (gone : ι) : Stays s.1 (after (remove gone) s).1 id := by
  rw [after_remove]
  split
  · refine .filter fun r _ hpinned hkept => List.mem_filter.mpr ⟨hpinned, hkept⟩
  · exact .refl s.1 id

/-- A read makes an entry only of what is held then. -/
theorem stays_get (asked : ι) :
    Stays s.1 (after (get asked) s).1 id ∨
      ((after (get asked) s).1.slice? (after (get asked) s).2 id).isSome = true := by
  obtain ⟨l, w⟩ := s
  have hends := ends_get l w asked
  simp only [after]
  generalize get asked (l, w) = result at hends ⊢
  cases hends with
  | found | failed | unread | unreported => exact .inl (.refl l id)
  | lost => exact .inl (.filter fun _ _ hpinned _ => hpinned)
  | @made v slice u r hentry hvalue hslice hr =>
    by_cases hid : asked = id
    · subst hid
      have hview : (l.add r).cache.view (u.step .newNode) = .ok v :=
        Cache.view_play_newNode (Cache.view_of_value hvalue).1 1
      refine .inr ?_
      rw [slice?_of_view hview, hslice]
      rfl
    · subst hr
      refine .inl fun hunpinned hadded => ⟨hunpinned, ?_⟩
      exact (isMaterialized_add.mp hadded).resolve_left hid

/-- A listing makes entries also of what it finds under other keys. -/
theorem stays_getAll (hunpinned : id ∉ (after getAll s).1.pinned) :
    Stays s.1 (after getAll s).1 id ∨
      ((after getAll s).1.slice? (after getAll s).2 id).isSome = true ∨
      ∃ fields, (after getAll s).1.cache.view (after getAll s).2 = .ok (.object fields) ∧
        Reports fields id ∧ Fields.has fields (ResourceId.key id) = false := by
  obtain ⟨l, w⟩ := s
  cases hrun : getAll (l, w) with
  | error e s' =>
    rw [after_of_error hrun, eq_of_getAll_error hrun]
    exact .inl (.refl l id)
  | ok found s' =>
    rw [after_of_ok hrun] at hunpinned ⊢
    obtain ⟨fields, u, made, hvalue, hmakes, hfound, hl', hw'⟩ := exists_fields_of_getAll hrun
    have hview : s'.1.cache.view s'.2 = .ok (.object fields) := by
      rw [hl', hw']
      exact Cache.view_play_newNode (Cache.view_of_value hvalue).1 _
    have hpinned : id ∉ l.pinned := by
      rw [hl'] at hunpinned
      exact hunpinned
    cases hkey : Fields.has fields (ResourceId.key id) with
    | true =>
      refine .inr (.inl ?_)
      rw [slice?_of_view hview, Json.get?_object]
      exact hkey
    | false =>
      by_cases hreports : Reports fields id
      · exact .inr (.inr ⟨fields, hview, hreports, hkey⟩)
      · -- neither its key nor another one is there, so the listing does not have it
        refine .inl fun _ hlisted => ?_
        rw [hl', isMaterialized_iff, hfound, listed_iff hmakes hpinned, hkey] at hlisted
        rcases hlisted with h | ⟨-, h⟩
        · exact absurd h hreports
        · cases h

variable {t : Turn ι}

theorem loses_of_outlasts (hbefore : ¬ Outlasts s id) (h : Outlasts (t.take s) id) :
    t.Loses s id := by
  obtain ⟨hunpinned, hentry, hslice⟩ := h
  cases hheld : s.1.slice? s.2 id with
  | some v => exact .inl ⟨by rw [hheld]; rfl, hslice⟩
  | none =>
    have hnew : ¬ Stays s.1 (t.take s).1 id := fun hstays =>
      hbefore ⟨(hstays hunpinned hentry).1, (hstays hunpinned hentry).2, hheld⟩
    have hgone : ¬ ((t.take s).1.slice? (t.take s).2 id).isSome = true := by
      rw [hslice]
      exact Bool.false_ne_true
    cases t with
    | elsewhere d => exact absurd (Stays.refl s.1 id) hnew
    | pin r => exact absurd (stays_pin r) hnew
    | ask operation =>
      rw [Turn.take] at hunpinned hnew hgone
      rcases after_perform operation s with heq | ⟨rfl, heq⟩ | ⟨asked, -, heq⟩ | ⟨gone, -, heq⟩
      · rw [heq] at hnew
        exact absurd (Stays.refl s.1 id) hnew
      · rw [heq] at hunpinned hnew hgone
        refine .inr ⟨rfl, ?_⟩
        rw [Turn.take, heq]
        exact ((stays_getAll hunpinned).resolve_left hnew).resolve_left hgone
      · rw [heq] at hnew hgone
        exact absurd ((stays_get asked).resolve_left hnew) hgone
      · rw [heq] at hnew
        exact absurd (stays_remove gone) hnew

/-- What outlasts the state after several turns, and did not before, was lost in one of them. -/
theorem exists_loses {turns : List (Turn ι)} (hbefore : ¬ Outlasts s id)
    (h : Outlasts (takeAll s turns) id) :
    ∃ earlier t later, turns = earlier ++ t :: later ∧ t.Loses (takeAll s earlier) id := by
  induction turns generalizing s with
  | nil => exact absurd h hbefore
  | cons t rest ih =>
    by_cases hnow : Outlasts (t.take s) id
    · exact ⟨[], t, rest, rfl, loses_of_outlasts hbefore hnow⟩
    · obtain ⟨earlier, t', later, rfl, hloses⟩ := ih hnow h
      exact ⟨t :: earlier, t', later, rfl, hloses⟩

/-- **Existence without asking.** Whatever was asked of a collection and done beside it, whether an
unpinned id is known is told without sending or changing anything: it is when it has an entry or its
key is held. That is what the state held tells, and what the bridge has told just now, unless the id
has an entry that outlasts the state; and then some turn took its key from the state, or it was
listed under another key. -/
theorem known_as_held_unless_outlasting (channel : Channel) (path : String) (cache : Cache)
    (w : World) (turns : List (Turn ι)) :
    let s := takeAll (.ofCache channel path cache, w) turns
    ∀ id, id ∉ s.1.pinned → Known s id ∧
      (Outlasts s id → ∃ earlier t later, turns = earlier ++ t :: later ∧
        t.Loses (takeAll (.ofCache channel path cache, w) earlier) id) := by
  intro s id hid
  refine ⟨known_of_not_pinned hid, fun h => exists_loses ?_ h⟩
  rintro ⟨-, hentry, -⟩
  cases hentry

/-- A world in which a bridge reports lights, each reply once. -/
def reporting (replies : List String) : World :=
  let script := Script.ofLines 0 (replies.map fun reply => .once .get "/api/user/lights" (.ok reply))
  { World.start with
    transports := Table.empty.set 0 script, slots := Table.empty.set 1 0, held := [2], fresh := 3 }

/-- The lights 1 and 2 are listed, and then another handle of the root fetches a state with light 2
only. Light 1 outlasts that state and light 2 does not. -/
theorem light_outlasts_refresh :
    let channel : Channel := ⟨"192.168.2.116", 80, "user", .millis 0, 1, 0⟩
    let cache := Cache.root 2 "/lights" channel .never
    let w := reporting ["\x7b\"1\":\x7b\x7d,\"2\":\x7b\x7d\x7d", "\x7b\"2\":\x7b\x7d\x7d"]
    let turns : List (Turn Int32) := [.ask .getAll, .elsewhere (.fetch 2 "/lights" channel .never)]
    let s := takeAll (.ofCache channel "/lights" cache, w) turns
    s.1.pinned = [] ∧ (s.1.cache.view s.2).isOk = true ∧ ¬ Outlasts s 2 ∧ Outlasts s 1 ∧
      Known s 2 ∧ Known s 1 ∧ ∃ earlier t later, turns = earlier ++ t :: later ∧
        t.Loses (takeAll (.ofCache channel "/lights" cache, w) earlier) 1 := by
  intro channel cache w turns s
  have hpinned : s.1.pinned = [] := by decide +kernel
  have hview : (s.1.cache.view s.2).isOk = true := by decide +kernel
  have hreported : ¬ Outlasts s 2 := by decide +kernel
  have houtlasts : Outlasts s 1 := by decide +kernel
  -- What the world is does not matter any more, and unfolding it would run the turns.
  clear_value w
  have hunpinned : ∀ id, id ∉ s.1.pinned := by
    rw [hpinned]
    exact fun _ => List.not_mem_nil
  obtain ⟨hknown, hlost⟩ :=
    known_as_held_unless_outlasting channel "/lights" cache w turns 1 (hunpinned 1)
  have hother := (known_as_held_unless_outlasting channel "/lights" cache w turns 2 (hunpinned 2)).1
  exact ⟨hpinned, hview, hreported, houtlasts, hother, hknown, hlost houtlasts⟩

/-- A light that the last state does not have still counts as known. -/
theorem light_known_when_gone :
    ¬ ∀ (channel : Channel) (path : String) (cache : Cache) (w : World) (turns : List (Turn Int32)),
      let s := takeAll (.ofCache channel path cache, w) turns
      ∀ id v, id ∉ s.1.pinned → s.1.cache.view s.2 = .ok v →
        (outcome (s.1.existsCached? id) s.2 = .ok true ↔
          (v.get? (ResourceId.key id)).isSome = true) := by
  intro h
  let channel : Channel := ⟨"192.168.2.116", 80, "user", .millis 0, 1, 0⟩
  let cache := Cache.root 2 "/lights" channel .never
  let w := reporting ["\x7b\"1\":\x7b\x7d\x7d", "\x7b\x7d"]
  let turns : List (Turn Int32) := [.ask (.get 1), .ask .refresh]
  let s := takeAll (.ofCache channel "/lights" cache, w) turns
  have hpinned : 1 ∉ s.1.pinned := by decide +kernel
  have hknown : (outcome (s.1.existsCached? 1) s.2).toOption = some true := by decide +kernel
  have hgone : (s.1.cache.view s.2).toOption.map (fun v => (v.get? "1").isSome) = some false := by
    decide +kernel
  have hagrees := h channel "/lights" cache w turns 1
  clear_value w
  obtain ⟨v, hview, hkey⟩ := Option.map_eq_some_iff.mp hgone
  have hheld : (v.get? "1").isSome = true :=
    (hagrees v hpinned (eq_ok_of_toOption hview)).mp (eq_ok_of_toOption hknown)
  rw [hkey] at hheld
  cases hheld

end Collection

/-- What is asked of the collection of groups is a row of turns of the plain one. -/
theorem Groups.exists_turns (operation : Collection.Operation Int32)
    (s : Collection Int32 × World) :
    ∃ turns, after (perform operation) s = Collection.takeAll s turns := by
  have hplain : ∃ turns, after (Collection.perform operation) s = Collection.takeAll s turns :=
    ⟨[.ask operation], rfl⟩
  have hplays := plays_perform covers_all operation
  cases operation with
  | get id =>
    obtain ⟨l, w⟩ := s
    by_cases hid : id = allLights
    · subst hid
      refine Collection.exists_turns_of_pin hplays ?_
      have hget : after (perform (.get allLights)) (l, w) = after (get allLights) (l, w) :=
        after_map _ _ _
      rw [hget]
      have hends := ends_get l w
      simp only [after]
      generalize get allLights (l, w) = result at hends ⊢
      cases hends with
      | found | failed | cut | unread => exact .inl rfl
      | @made slice u r hentry _ hr =>
        subst hr
        have hnew : ¬ l.isMaterialized allLights = true := by
          rw [Collection.isMaterialized_of_entry?_eq_none hentry]
          exact Bool.false_ne_true
        refine .inr ⟨⟨allLights, slice, ownRoot l w⟩, ?_⟩
        rw [Collection.pin, if_neg hnew]
        rfl
    · have hget : get id = Collection.get id := if_neg hid
      rw [perform, hget]
      exact hplain
  | has id | hasCached id =>
    refine Collection.exists_turns_of_pin hplays (.inl ?_)
    rw [perform, after_map, Collection.after_reading]
  | _ => exact hplain

/-- A search for sensors looks at the state and then lists, which are turns as well. -/
theorem Sensors.exists_turns (kind : String) (s : Collection Int32 × World) :
    ∃ turns, after (getAllOfKind kind) s = Collection.takeAll s turns := by
  have hused := covers_all.used s.1.over_all.cache
  obtain ⟨deeds, -, hworld, -⟩ := Collection.plays_reported hused s.2 trivial
  have hlook : after (liftM s.1.reported : ActOn (Collection Int32) Fields) s =
      Collection.takeAll s (deeds.map .elsewhere) := by
    rw [Collection.takeAll_elsewhere]
    exact (after_beside s.1.reported s.1 s.2).trans (Prod.ext rfl hworld)
  have hstart : after (getAllOfKind kind) s = after (liftM s.1.reported >>= fun fields =>
      Collection.getAll >>= fun all =>
        pure (all.filter fun r => (idsOfKind fields kind).contains r.id)) s := rfl
  rw [hstart]
  cases hreported : (liftM s.1.reported : ActOn (Collection Int32) Fields) s with
  | error e s' =>
    rw [after_bind_of_error hreported, ← after_of_error hreported]
    exact ⟨_, hlook⟩
  | ok fields s' =>
    rw [after_bind_of_ok hreported, after_bind_of_still fun _ _ => rfl, ← after_of_ok hreported,
      hlook]
    refine ⟨deeds.map .elsewhere ++ [.ask .getAll], ?_⟩
    rw [Collection.takeAll_append]
    exact (after_map _ _ _).symm

end LightBridge
