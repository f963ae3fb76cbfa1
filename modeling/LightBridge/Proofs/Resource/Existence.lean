import LightBridge.Proofs.Resource.Mirror

/-!
# Listing and existence

A listing reads the reported keys as ids, and a question whether an id exists looks for the key that
the id is written as. Right after a listing the question is answered from what the listing has read,
so the two differ exactly where a key and its id do: an id under another key than its own is listed,
and does not exist; the empty key denotes no id, and still answers for the empty one.
-/

namespace LightBridge

theorem eq_ok_of_outcome {ε σ α : Type} {x : EStateM ε σ α} {s : σ} {a : α}
    (h : outcome x s = .ok a) : x s = .ok a (after x s) := by
  unfold outcome at h
  unfold after
  cases hx : x s with
  | ok b s' =>
    rw [hx] at h
    cases h
    rfl
  | error e s' =>
    rw [hx] at h
    nomatch h

theorem World.now_play_newNode (w : World) (n : Nat) :
    (w.play (List.replicate n .newNode)).now = w.now := by
  induction n generalizing w with
  | zero => rfl
  | succ n ih => exact ih _

namespace Cache

variable {c : Cache} {w u : World} {v : Json}

/-- What was fetched just now is not stale when it is served for some time. -/
theorem isStale_of_fetched {interval : Duration} (hinterval : interval ≠ .millis 0) (reply : Json)
    (now : Instant) : isStale interval (some ⟨reply, now⟩) now = false := by
  cases interval with
  | never => simp [isStale]
  | millis n =>
    have hn : n ≠ 0 := fun h => hinterval (by rw [h])
    have hlater : ¬ now + n ≤ now := Nat.not_le.mpr (Nat.lt_add_of_pos_right (Nat.pos_of_ne_zero hn))
    simp [isStale, hn, hlater]

theorem fresh_iff : c.Fresh w ↔ c.Live w ∧ c.rootStale w = false := by
  rw [Fresh, outcome, needsRefresh_eq, ← linked_eq_ok_iff]
  cases c.linked w with
  | error e => simp [Except.toOption]
  | ok _ => simp [Except.toOption]

/-- After a read, the next one finds the root fresh, unless it serves what it holds for no time. -/
theorem fresh_of_value (hinterval : c.rootInterval ≠ .millis 0) (h : c.value w = .ok v u) :
    c.Fresh u := by
  cases hlinked : c.linked w with
  | error e =>
    rw [value_of_linked_error hlinked] at h
    nomatch h
  | ok _ =>
    cases hstale : c.rootStale w with
    | false =>
      have hfresh := fresh_of_not_stale hlinked hstale
      rw [value_of_fresh hfresh] at h
      have hsame : u = w := by rw [← after_of_ok h, after_peek]
      rwa [hsame]
    | true =>
      refine fresh_iff.mpr ⟨(view_eq_ok_iff.mp (view_of_value h).1).1, ?_⟩
      -- the fetch has stored its reply, and the look at it leaves the world as it is
      rw [value_of_stale hlinked hstale] at h
      obtain ⟨_, u', hfetch, hpeek⟩ := exists_of_bind_ok h
      have hsame : u = u' := by rw [← after_of_ok hpeek, after_peek]
      subst hsame
      rw [fetch_eq] at hfetch
      cases hanswer : answer c.rootPath c.rootChannel w with
      | error e =>
        rw [hanswer] at hfetch
        nomatch hfetch
      | ok reply =>
        rw [hanswer] at hfetch
        cases hfetch
        rw [rootStale, World.step, Table.get?_set_self]
        exact isStale_of_fetched hinterval reply _

theorem live_play_newNode (h : c.Live w) (n : Nat) :
    c.Live (w.play (List.replicate n .newNode)) :=
  fun node hnode => World.holds_play_newNode (h node hnode) n

/-- New nodes make nothing stale. -/
theorem Fresh.play_newNode (h : c.Fresh w) (n : Nat) :
    c.Fresh (w.play (List.replicate n .newNode)) := by
  obtain ⟨hlive, hstale⟩ := fresh_iff.mp h
  refine fresh_iff.mpr ⟨live_play_newNode hlive n, ?_⟩
  rw [rootStale, World.snapshots_play_newNode, World.now_play_newNode]
  exact hstale

theorem view_play_newNode (h : c.view w = .ok v) (n : Nat) :
    c.view (w.play (List.replicate n .newNode)) = .ok v := by
  obtain ⟨hlive, s, hroot, hat⟩ := view_eq_ok_iff.mp h
  refine view_eq_ok_iff.mpr ⟨live_play_newNode hlive n, s, ?_, hat⟩
  rw [World.snapshots_play_newNode]
  exact hroot

end Cache

namespace Collection

variable {ι : Type} [DecidableEq ι] [ResourceId ι]
variable {l l' : Collection ι} {fields : Fields} {found : List (Resource ι)} {id : ι}
variable {w w' : World}

/-- A listing and the question whether an id exists tell the same about it. -/
def AgreesOn (found : List (Resource ι)) (l : Collection ι) (w : World) (id : ι) : Prop :=
  (∃ r ∈ found, r.id = id) ↔ outcome (l.exists? id) w = .ok true

omit [DecidableEq ι] [ResourceId ι] in
theorem value_of_reported (h : l.reported w = .ok fields w') :
    l.cache.value w = .ok (.object fields) w' := by
  obtain ⟨v, u, hvalue, hrest⟩ := exists_of_bind_ok h
  cases v with
  | object fields' =>
    cases hrest
    exact hvalue
  | _ => nomatch hrest

/-- What a listing has read is there to be read again without a fetch. -/
theorem exists_fields_of_getAll (h : getAll (l, w) = .ok found (l', w')) :
    ∃ fields u made, l.cache.value w = .ok (.object fields) u ∧
      Makes (l.retain fields) fields made ∧ found = (made.foldl add (l.retain fields)).entries ∧
      l' = { l with entries := found } ∧
      w' = u.play (List.replicate made.length .newNode) := by
  cases hreported : l.reported w with
  | error e u =>
    rw [getAll_of_error hreported] at h
    nomatch h
  | ok fields u =>
    obtain ⟨made, hmakes, hrun⟩ := exists_made (l.retain fields) fields u
    rw [getAll_of_ok hreported hrun] at h
    cases h
    exact ⟨fields, u, made, value_of_reported hreported, hmakes, rfl, foldl_add .., rfl⟩

/-- An unpinned id is listed when a key denotes it, and when it had an entry under its own key. -/
theorem listed_iff {made : List (Resource ι)} (hmakes : Makes (l.retain fields) fields made)
    (hid : id ∉ l.pinned) :
    (∃ r ∈ (made.foldl add (l.retain fields)).entries, r.id = id) ↔
      Reports fields id ∨
        l.isMaterialized id = true ∧ Fields.has fields (ResourceId.key id) = true := by
  have hretained : (l.retain fields).isMaterialized id = true ↔
      l.isMaterialized id = true ∧ Fields.has fields (ResourceId.key id) = true := by
    rw [isMaterialized_iff, isMaterialized_iff]
    constructor
    · rintro ⟨r, hr, rfl⟩
      obtain ⟨hentry, hkept⟩ := mem_retain.mp hr
      exact ⟨⟨r, hentry, rfl⟩, hkept.resolve_left hid⟩
    · rintro ⟨⟨r, hr, rfl⟩, hkey⟩
      exact ⟨r, mem_retain.mpr ⟨hr, .inr hkey⟩, rfl⟩
  constructor
  · rintro ⟨r, hr, heq⟩
    rcases mem_foldl_add.mp hr with hr | hr
    · exact .inl ((hmakes.ids id).mp ⟨r, hr, heq⟩).2
    · exact .inr (hretained.mp (isMaterialized_iff.mpr ⟨r, hr, heq⟩))
  · intro hlisted
    cases hkept : (l.retain fields).isMaterialized id with
    | true =>
      obtain ⟨r, hr, heq⟩ := isMaterialized_iff.mp hkept
      exact ⟨r, mem_foldl_add.mpr (.inr hr), heq⟩
    | false =>
      have hreports : Reports fields id := by
        refine hlisted.resolve_right fun hboth => ?_
        rw [hretained.mpr hboth] at hkept
        cases hkept
      obtain ⟨r, hr, heq⟩ := (hmakes.ids id).mpr ⟨hkept, hreports⟩
      exact ⟨r, mem_foldl_add.mpr (.inl hr), heq⟩

/-- While the cache is fresh, an unpinned id exists when its own key is among those held; nothing
is fetched to tell. -/
theorem exists?_of_fresh (hid : id ∉ l.pinned) (hfresh : l.cache.Fresh w)
    (hview : l.cache.view w = .ok (.object fields)) :
    l.exists? id w = .ok (Fields.has fields (ResourceId.key id)) w := by
  have hpinned : l.isPinned id = false := by
    rw [← Bool.not_eq_true, isPinned_iff]
    exact hid
  have hvalue : l.cache.value w = .ok (.object fields) w := by
    rw [Cache.value_of_fresh hfresh, Cache.peek_eq, hview]
    rfl
  rw [exists?, hpinned, if_neg Bool.false_ne_true]
  simp only [bind, EStateM.bind, hvalue]
  rw [Json.get?_object]
  rfl

/-- What is told of an unpinned id by a listing of `fields` that turns `l` into `l'`, and by the
question whether the id exists right after it. -/
structure Told (l : Collection ι) (fields : Fields) (found : List (Resource ι)) (l' : Collection ι)
    (w' : World) (id : ι) : Prop where
  listed : (∃ r ∈ found, r.id = id) ↔
    Reports fields id ∨ l.isMaterialized id = true ∧ Fields.has fields (ResourceId.key id) = true
  asked : l'.exists? id w' = .ok (Fields.has fields (ResourceId.key id)) w'
  agrees : AgreesOn found l' w' id ↔
    (Reports fields id → Fields.has fields (ResourceId.key id) = true) ∧
      (Fields.has fields (ResourceId.key id) = true →
        Reports fields id ∨ l.isMaterialized id = true)

theorem told_of_fresh {made : List (Resource ι)} (hmakes : Makes (l.retain fields) fields made)
    (hfound : found = (made.foldl add (l.retain fields)).entries) (hpinned : l'.pinned = l.pinned)
    (hfresh : l'.cache.Fresh w') (hview : l'.cache.view w' = .ok (.object fields))
    (hid : id ∉ l'.pinned) : Told l fields found l' w' id := by
  have hasked := exists?_of_fresh hid hfresh hview
  have hlisted := listed_iff hmakes (hpinned ▸ hid)
  rw [← hfound] at hlisted
  refine ⟨hlisted, hasked, ?_⟩
  rw [AgreesOn, hlisted, outcome_of_ok hasked, Except.ok.injEq]
  tauto

theorem Told.of_canonical [LawfulResourceId ι] (h : Told l fields found l' w' id)
    (hfields : Canonical ι fields) : AgreesOn found l' w' id := by
  have hkey : Fields.has fields (ResourceId.key id) = true ↔ Reports fields id :=
    hfields.has_key_iff
  exact h.agrees.mpr ⟨hkey.mpr, fun hhas => .inl (hkey.mp hhas)⟩

/-- **Existence.** Right after a listing, with a state that is served for some time, the question
whether an unpinned id exists is answered without a fetch: it does when its own key is reported. It
is listed when some key denotes it, and also when it had an entry and its own key is reported. So
both agree unless the id is reported under another key only, or its own key denotes no id and it had
no entry; where all reported keys are canonical, they agree on every id. -/
theorem listing_and_existence_agree_on_own_keys [LawfulResourceId ι]
    (hinterval : l.cache.rootInterval ≠ .millis 0) (h : getAll (l, w) = .ok found (l', w')) :
    ∃ fields, l'.cache.view w' = .ok (.object fields) ∧
      (∀ id, id ∉ l'.pinned → Told l fields found l' w' id) ∧
      (Canonical ι fields → ∀ id, id ∉ l'.pinned → AgreesOn found l' w' id) := by
  obtain ⟨fields, u, made, hvalue, hmakes, hfound, hl', hw'⟩ := exists_fields_of_getAll h
  have hcache : l'.cache = l.cache := by rw [hl']
  have hpinned : l'.pinned = l.pinned := by rw [hl']
  -- between the read and the end of the listing there are new nodes only
  have hview : l'.cache.view w' = .ok (.object fields) := by
    rw [hcache, hw']
    exact Cache.view_play_newNode (Cache.view_of_value hvalue).1 _
  have hfresh : l'.cache.Fresh w' := by
    rw [hcache, hw']
    exact (Cache.fresh_of_value hinterval hvalue).play_newNode _
  have htold : ∀ id, id ∉ l'.pinned → Told l fields found l' w' id :=
    fun id hid => told_of_fresh hmakes hfound hpinned hfresh hview hid
  exact ⟨fields, hview, htold, fun hfields id hid => (htold id hid).of_canonical hfields⟩

/-- A collection of lights that was not read yet, and a bridge that reports `reply` once. -/
def unread (reply : String) : Collection Int32 × World :=
  let channel : Channel := ⟨"192.168.2.116", 80, "user", .millis 0, 1, 0⟩
  (.ofCache channel "/lights" (.root 2 "/lights" channel .never),
    { World.start with
      transports :=
        Table.empty.set 0 (Script.ofLines 0 [.once .get "/api/user/lights" (.ok reply)])
      slots := Table.empty.set 1 0, held := [2], fresh := 3 })

/-- Light 1 is reported under its own key, and light 7 under `007`: both are listed. -/
theorem lights_listed_under_two_keys :
    let s := unread "\x7b\"1\":\x7b\x7d,\"007\":\x7b\x7d\x7d"
    ∃ found l' w', s.1.cache.rootInterval ≠ .millis 0 ∧ getAll s = .ok found (l', w') ∧
      found.map (·.id) = [1, 7] ∧
      ∃ fields, l'.cache.view w' = .ok (.object fields) ∧
        (∀ id, id ∉ l'.pinned → Told s.1 fields found l' w' id) ∧
        (Canonical Int32 fields → ∀ id, id ∉ l'.pinned → AgreesOn found l' w' id) := by
  intro s
  have hids : (outcome getAll s).toOption.map (·.map (·.id)) = some [1, 7] := by decide +kernel
  have hinterval : s.1.cache.rootInterval ≠ .millis 0 := Duration.noConfusion
  clear_value s
  obtain ⟨found, hfound, hmap⟩ := Option.map_eq_some_iff.mp hids
  have hrun := eq_ok_of_outcome (eq_ok_of_toOption hfound)
  exact ⟨found, _, _, hinterval, hrun, hmap, listing_and_existence_agree_on_own_keys hinterval hrun⟩

/-- A light that is reported under the key `007` is listed as light 7, and light 7 does not exist. -/
theorem listed_light_denied :
    ¬ ∀ (l l' : Collection Int32) (w w' : World) (found : List (Resource Int32)),
      l.cache.rootInterval ≠ .millis 0 → getAll (l, w) = .ok found (l', w') →
      ∀ id, id ∉ l'.pinned → AgreesOn found l' w' id := by
  intro h
  let s := unread "\x7b\"007\":\x7b\x7d\x7d"
  have hids : (outcome getAll s).toOption.map (·.map (·.id)) = some [7] := by decide +kernel
  have hpinned : (7 : Int32) ∉ (after getAll s).1.pinned := by decide +kernel
  have hexists : (outcome ((after getAll s).1.exists? 7) (after getAll s).2).toOption =
      some false := by decide +kernel
  have hinterval : s.1.cache.rootInterval ≠ .millis 0 := Duration.noConfusion
  clear_value s
  obtain ⟨found, hfound, hmap⟩ := Option.map_eq_some_iff.mp hids
  have hrun := eq_ok_of_outcome (eq_ok_of_toOption hfound)
  have hagrees := h s.1 (after getAll s).1 s.2 (after getAll s).2 found hinterval hrun 7 hpinned
  obtain ⟨r, hr, heq⟩ : ∃ r ∈ found, r.id = 7 := by
    have hmem : (7 : Int32) ∈ found.map (·.id) := by rw [hmap]; exact List.mem_singleton.mpr rfl
    exact List.mem_map.mp hmem
  have htrue := hagrees.mp ⟨r, hr, heq⟩
  rw [eq_ok_of_toOption hexists] at htrue
  cases htrue

end Collection

end LightBridge
