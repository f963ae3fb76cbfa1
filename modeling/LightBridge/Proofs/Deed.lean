import LightBridge.Proofs.Cache.View

/-!
# Deeds

A deed says what events are for: a root is fetched, what a cache stands for is updated, or something
else happens. The first two are all that changes what a root holds, so a law about that is a law
about the deeds of a run, in whatever order the handles take their turns.
-/

namespace LightBridge

/-- Something that is done to a world. -/
inductive Deed where
  | event (e : Event)
  /-- A root is fetched; it serves what it holds for `interval`. -/
  | fetch (node : NodeId) (path : String) (channel : Channel) (interval : Duration)
  | update (c : Cache) (f : Json → Json)

/-! ## Roots and fetches -/

namespace Cache

/-- The channel that the state is fetched through. -/
def rootChannel : Cache → Channel
  | .root _ _ channel _ => channel
  | .child parent .. => parent.rootChannel

/-- How long the root that the cache reads from serves what it holds. -/
def rootInterval : Cache → Duration
  | .root _ _ _ interval => interval
  | .child parent .. => parent.rootInterval

/-- Whether the root that the cache reads from is stale. -/
def rootStale (c : Cache) (w : World) : Bool :=
  isStale c.rootInterval (w.snapshots.get? c.rootNode) w.now

/-- The root that the cache reads from, as it was made. -/
def top (c : Cache) : Cache := .root c.rootNode c.rootPath c.rootChannel c.rootInterval

/-- The fetch of what the cache reads from. -/
def fetching (c : Cache) : Deed := .fetch c.rootNode c.rootPath c.rootChannel c.rootInterval

variable {node : NodeId} {path : String} {channel : Channel} {w : World}

/-- The world after the request of a fetch. -/
def answered (path : String) (channel : Channel) (w : World) : World :=
  after (channel.request .get path (.object [])) w

/-- What a fetch gets: a reply without a refusal, or else the fault that it fails with. -/
def answer (path : String) (channel : Channel) (w : World) : Except Fault Json := do
  let reply ← outcome (channel.request .get path (.object [])) w
  Reply.check reply
  pure reply

/-- A fetch holds what it gets, as old as the end of its request. When it gets nothing, it has made
the request all the same. -/
theorem fetch_eq (node : NodeId) (path : String) (channel : Channel) (w : World) :
    fetch node path channel w =
      match answer path channel w with
      | .ok reply => .ok () ((answered path channel w).step (.store node reply))
      | .error e => .error e (answered path channel w) := by
  unfold fetch answer answered outcome after
  simp only [bind, EStateM.bind, Except.bind]
  cases channel.request .get path (.object []) w with
  | error e u => rfl
  | ok reply u =>
    dsimp only
    cases Reply.check reply <;> rfl

theorem after_fetch_of_ok {reply : Json} (h : answer path channel w = .ok reply) :
    after (fetch node path channel) w = (answered path channel w).step (.store node reply) := by
  simp only [after, fetch_eq, h]

theorem after_fetch_of_error {e : Fault} (h : answer path channel w = .error e) :
    after (fetch node path channel) w = answered path channel w := by
  simp only [after, fetch_eq, h]

end Cache

/-- What a root holds changes by fetches and updates only. -/
def Deed.Proper : Deed → Prop
  | .event (.store ..) | .event (.patch ..) => False
  | _ => True

/-! ## Deeds in a row -/

namespace World

/-- The world after a deed. -/
def enact (w : World) : Deed → World
  | .event e => w.step e
  | .fetch node path channel _ => after (Cache.fetch node path channel) w
  | .update c f => after (c.patch f) w

/-- The world after several deeds, in order. -/
def enactAll (w : World) (deeds : List Deed) : World := deeds.foldl enact w

@[simp] theorem enactAll_nil (w : World) : w.enactAll [] = w := rfl

@[simp] theorem enactAll_cons (w : World) (d : Deed) (deeds : List Deed) :
    w.enactAll (d :: deeds) = (w.enact d).enactAll deeds := rfl

theorem enactAll_append (w : World) (first second : List Deed) :
    w.enactAll (first ++ second) = (w.enactAll first).enactAll second :=
  List.foldl_append

/-- Deeds that are events only. -/
theorem enactAll_events (w : World) (events : List Event) :
    w.enactAll (events.map .event) = w.play events :=
  List.foldl_map

/-- Each of several deeds is admitted in the world in which it is done. -/
def Follows (P : World → Deed → Prop) : World → List Deed → Prop
  | _, [] => True
  | w, d :: rest => P w d ∧ Follows P (w.enact d) rest

variable {P P' : World → Deed → Prop} {w : World}

theorem follows_append {first second : List Deed} :
    w.Follows P (first ++ second) ↔ w.Follows P first ∧ (w.enactAll first).Follows P second := by
  induction first generalizing w with
  | nil => simp [Follows]
  | cons d rest ih => rw [List.cons_append, Follows, Follows, ih, and_assoc, enactAll_cons]

theorem Follows.mono (h : ∀ w d, P w d → P' w d) {deeds : List Deed} (hw : w.Follows P deeds) :
    w.Follows P' deeds := by
  induction deeds generalizing w with
  | nil => trivial
  | cons d rest ih => exact ⟨h w d hw.1, ih hw.2⟩

/-- What is admitted anywhere holds of all deeds. -/
theorem Follows.forall {Q : Deed → Prop} {deeds : List Deed} (hw : w.Follows (fun _ d => Q d) deeds) :
    ∀ d ∈ deeds, Q d := by
  induction deeds generalizing w with
  | nil => nofun
  | cons d rest ih => exact List.forall_mem_cons.mpr ⟨hw.1, ih hw.2⟩

end World

/-! ## Deeds as events -/

/-- What the events of a deed can be. -/
def Deed.Makes : Deed → Event → Prop
  | .event e, e' => e' = e
  | .fetch node path channel _, e' =>
    e' = .attempt channel (channel.compose .get path (.object [])) ∨
      ∃ reply, e' = .store node reply
  | .update c _, e' => ∃ value, e' = .patch c.rootNode value

namespace World

theorem enact_update_of_error {c : Cache} {w : World} {e : Fault} (h : c.view w = .error e)
    (f : Json → Json) : w.enact (.update c f) = w :=
  after_of_error (Cache.patch_of_view_error h f)

theorem exists_events (w : World) (d : Deed) :
    ∃ events, w.enact d = w.play events ∧ ∀ e ∈ events, d.Makes e := by
  cases d with
  | event e => exact ⟨[e], rfl, by simp [Deed.Makes]⟩
  | fetch node path channel interval =>
    have hattempts := channel.after_request .get path (.object []) w
    cases h : Cache.answer path channel w with
    | error e =>
      refine ⟨_, (Cache.after_fetch_of_error h).trans hattempts, fun e he => ?_⟩
      exact .inl (List.eq_of_mem_replicate he)
    | ok reply =>
      -- the reply is stored after the attempts
      let r := channel.compose .get path (.object [])
      let attempts := List.replicate (channel.attempts r w) (Event.attempt channel r)
      refine ⟨attempts ++ [.store node reply], ?_, fun e he => ?_⟩
      · rw [play_append, ← hattempts]
        exact Cache.after_fetch_of_ok h
      · rcases List.mem_append.mp he with he | he
        · exact .inl (List.eq_of_mem_replicate he)
        · exact .inr ⟨reply, List.mem_singleton.mp he⟩
  | update c f =>
    cases h : c.view w with
    | error e => exact ⟨[], enact_update_of_error h f, by simp⟩
    | ok v =>
      obtain ⟨s, hs, -, hpatch⟩ := Cache.patch_of_view h f
      refine ⟨[.patch c.rootNode (Json.putAt (f v) c.keys s.value)], ?_, by simp [Deed.Makes]⟩
      rw [play_cons, play_nil, step, hs]
      exact after_of_ok hpatch

theorem fresh_le_enact (w : World) (d : Deed) : w.fresh ≤ (w.enact d).fresh := by
  obtain ⟨events, hplay, -⟩ := w.exists_events d
  rw [hplay]
  exact w.fresh_le_play events

theorem fresh_le_enactAll (w : World) (deeds : List Deed) : w.fresh ≤ (w.enactAll deeds).fresh := by
  induction deeds generalizing w with
  | nil => exact Nat.le_refl _
  | cons d rest ih => exact Nat.le_trans (w.fresh_le_enact d) (ih (w.enact d))

/-- Deeds in a row are events in a row. -/
theorem Follows.exists_events {P : World → Deed → Prop} {E : Event → Prop}
    (hP : ∀ w d, P w d → ∀ e, d.Makes e → E e) {w : World} {deeds : List Deed}
    (h : w.Follows P deeds) :
    ∃ events, w.enactAll deeds = w.play events ∧ ∀ e ∈ events, E e := by
  induction deeds generalizing w with
  | nil => exact ⟨[], rfl, by simp⟩
  | cons d rest ih =>
    obtain ⟨first, hfirst, hmakes⟩ := w.exists_events d
    obtain ⟨second, hsecond, hrest⟩ := ih h.2
    refine ⟨first ++ second, ?_, fun e he => ?_⟩
    · rw [enactAll_cons, hsecond, hfirst, play_append]
    · exact (List.mem_append.mp he).elim (fun he => hP w d h.1 e (hmakes e he)) (hrest e)

end World

/-! ## What is admitted -/

/-- Letting time pass and making nodes is always admitted. -/
structure AdmitsIdle (P : World → Deed → Prop) : Prop where
  pass : ∀ w elapsed, P w (.event (.pass elapsed))
  newNode : ∀ w, P w (.event .newNode)

/-- Sending through a channel is admitted, as long as nothing is read from a bridge. -/
def Channel.Used (P : World → Deed → Prop) (c : Channel) : Prop :=
  ∀ w r, r.method ≠ .get → P w (.event (.attempt c r))

/-- Reading through a cache is admitted: it fetches what is stale. -/
def Cache.Used (P : World → Deed → Prop) (c : Cache) : Prop :=
  ∀ w, c.rootStale w = true → P w c.fetching

/-- What a cache reads from may be fetched at any time. -/
def Cache.Refetched (P : World → Deed → Prop) (c : Cache) : Prop := ∀ w, P w c.fetching

/-- What the deeds of operations may be. -/
structure Scope where
  /-- The channels that are sent through. -/
  channel : Channel → Prop
  /-- Connections are opened. -/
  opens : Prop

namespace Scope

/-- Whether a deed is within the scope. What a root holds changes by a fetch or an update only. -/
def Admits (p : Scope) (_ : World) : Deed → Prop
  | .event (.attempt c _) => p.channel c
  | .event .newSlot => p.opens
  | .event (.store ..) | .event (.patch ..) => False
  | .event _ | .update .. => True
  | .fetch _ _ channel _ => p.channel channel

/-- Everything over channels in `C` that opens no connection. -/
def closed (C : Channel → Prop) : Scope := { channel := C, opens := False }

variable {p : Scope}

theorem admitsIdle : AdmitsIdle p.Admits := ⟨fun _ _ => trivial, fun _ => trivial⟩

theorem channelUsed {c : Channel} (h : p.channel c) : c.Used p.Admits := fun _ _ _ => h

theorem over_of_makes {C : Channel → Prop} (w : World) (d : Deed) (h : (closed C).Admits w d)
    (e : Event) (he : d.Makes e) : e.Over C := by
  cases d with
  | event e' =>
    cases he
    cases e with
    | attempt c r => exact h
    | newSlot => exact h
    | _ => trivial
  | fetch node path channel interval =>
    rcases he with rfl | ⟨reply, rfl⟩
    · exact h
    · trivial
  | update c f =>
    obtain ⟨value, rfl⟩ := he
    trivial

end Scope

/-- What a command of a session is for. -/
structure Task where
  /-- What it reads from a bridge without a cache. -/
  asked : Request → Prop
  /-- It tells a transport what to answer. -/
  prepares : Prop
  /-- The roots that it fetches also when they are not stale. -/
  refetches : Cache → Prop
  /-- The updates that it may make. -/
  patches : Cache → (Json → Json) → Prop

namespace Task

/-- Whether a deed serves a task, where `roots` are the roots that there are. A root is fetched as it
was made, and unless the task is to fetch it, it is so only when it is stale. No command gives nodes
up. -/
def Admits (task : Task) (roots : List Cache) (w : World) : Deed → Prop
  | .event (.attempt _ r) => r.method = .get → task.asked r
  | .event (.rescript ..) => task.prepares
  | .event (.store ..) | .event (.patch ..) | .event (.settle _) => False
  | .event _ => True
  | .fetch node path channel interval =>
    .root node path channel interval ∈ roots ∧
      (task.refetches (.root node path channel interval) ∨
        Cache.isStale interval (w.snapshots.get? node) w.now = true)
  | .update c f => c.top ∈ roots ∧ task.patches c f

/-- Nothing is read, refetched or updated. -/
def idle : Task where
  asked _ := False
  prepares := False
  refetches _ := False
  patches _ _ := False

variable {task : Task} {roots more : List Cache}

theorem admitsIdle : AdmitsIdle (task.Admits roots) := ⟨fun _ _ => trivial, fun _ => trivial⟩

theorem channelUsed (c : Channel) : c.Used (task.Admits roots) := fun _ _ hr h => absurd h hr

theorem cacheUsed {c : Cache} (h : c.top ∈ roots) : c.Used (task.Admits roots) :=
  fun _ hstale => ⟨h, .inr hstale⟩

theorem cacheRefetched {c : Cache} (h : c.top ∈ roots) (hrefetches : task.refetches c.top) :
    c.Refetched (task.Admits roots) :=
  fun _ => ⟨h, .inl hrefetches⟩

theorem Admits.proper (w : World) (d : Deed) (h : task.Admits roots w d) : d.Proper := by
  cases d with
  | event e =>
    cases e with
    | store | patch => exact h
    | _ => trivial
  | _ => trivial

/-- What serves a task when there are some roots serves it when there are more. -/
theorem Admits.mono (hroots : ∀ r ∈ roots, r ∈ more) (w : World) (d : Deed)
    (h : task.Admits roots w d) : task.Admits more w d := by
  cases d with
  | event e =>
    cases e with
    | store | patch | settle => exact absurd h id
    | _ => exact h
  | fetch node path channel interval => exact ⟨hroots _ h.1, h.2⟩
  | update c f => exact ⟨hroots _ h.1, h.2⟩

end Task

end LightBridge
