import LightBridge.Proofs.Cache.Freshness
import LightBridge.Proofs.Session.Account

/-!
# Fetches of a session

What single fetches, updates and reads do to a root, over whole sessions: whichever handles, lists
and caches share a root, it is fetched when it is stale, and holds its last good reply.
-/

namespace LightBridge

/-! ## When roots are fetched -/

/-- What fetches in a row read: each is a fetch of one of `roots`, as that root was made, and sends
the request for its path while it takes place. -/
structure World.FetchesRoots (w : World) (roots : List Cache) (deeds : List Deed) : Prop where
  distinct : (roots.map (·.rootNode)).Nodup
  known : ∀ f ∈ w.fetches deeds, f.root ∈ roots
  sent : ∀ f ∈ w.fetches deeds, ∃ times, f.SentAt times

/-- In a row of deeds, the fetches of a root are as far apart as its interval asks for. -/
structure World.FetchesWhenDue (w : World) (roots : List Cache) (deeds : List Deed) : Prop
    extends w.FetchesRoots roots deeds where
  /-- After a good fetch, the next ones begin when the interval has passed since it ended. -/
  spaced : (w.fetches deeds).Pairwise fun f g => f.Good g.node → g.DueFrom f.ended
  /-- A root that is served for ever is fetched well once. -/
  once : ∀ r ∈ roots, r.rootInterval = .never →
    ((w.fetches deeds).filter (·.Good r.rootNode)).length ≤ 1

theorem World.fetchesRoots {w : World} {roots : List Cache} {deeds : List Deed}
    (hdistinct : (roots.map (·.rootNode)).Nodup) (hreaches : ∀ d ∈ deeds, d.Reaches (· ∈ roots)) :
    w.FetchesRoots roots deeds where
  distinct := hdistinct
  known f hf := by
    obtain ⟨v, d, hd, hfd⟩ := exists_of_mem_fetches hf
    cases d with
    | event | update => nomatch hfd
    | fetch node path channel interval =>
      cases hfd
      exact hreaches _ hd
  sent f hf := by
    obtain ⟨v, d, -, hfd⟩ := exists_of_mem_fetches hf
    exact exists_times_of_fetched hfd

theorem World.FetchesRoots.whenDue {w : World} {roots : List Cache} {deeds : List Deed}
    (h : w.FetchesRoots roots deeds) (htimely : w.Follows (fun w d => d.Timely w) deeds) :
    w.FetchesWhenDue roots deeds where
  toFetchesRoots := h
  spaced := pairwise_fetches htimely
  once r hr hnever := length_good_of_never htimely fun f hf hnode => by
    -- roots are apart, so a fetch of the root has its interval
    have heq : f.root = r := List.inj_on_of_nodup_map h.distinct (h.known f hf) hr hnode
    rw [← hnever, ← heq]
    rfl

theorem Cache.after_value_eq_request {c : Cache} {w : World}
    (h : outcome c.needsRefresh w = .ok true) :
    ∃ snapshots, after c.value w =
      { after (c.rootChannel.request .get c.rootPath (.object [])) w with snapshots } := by
  rw [after_value_of_stale h]
  cases hanswer : answer c.rootPath c.rootChannel w with
  | error e => exact ⟨_, after_fetch_of_error hanswer⟩
  | ok reply => exact ⟨_, after_fetch_of_ok hanswer⟩

/-- A run whose handles read from known roots is accounted for by deeds that fetch these only. -/
theorem HasHandles.exists_fetching {σ γ α : Type} {perform : γ → Step σ α} {held : σ → List NodeId}
    {handles : σ → List Cache} {task : σ × World → γ → Task}
    (h : HasHandles perform held handles task) {s : σ × World} {k : Names} (hk : k.next = s.2.fresh)
    (hs : ∀ c ∈ handles s.1, c.top ∈ k.roots) (commands : List γ) :
    ∃ roots deeds, Accounts perform held handles task roots s commands deeds ∧
      s.2.FetchesRoots roots deeds := by
  obtain ⟨l, deeds, -, haccounts⟩ := h.exists_accounts hk hs commands
  exact ⟨l.roots, deeds, haccounts, World.fetchesRoots l.distinct haccounts.reaches⟩

theorem Workspace.exists_fetching {address : String} {port : UInt16} {username : String}
    {minDelay : Duration} {script : Script} {w w' : World} {s : Workspace}
    (hstart : start address port username minDelay script w = .ok s w')
    (earlier commands : List Command) :
    let before := stateAfter (s, w') earlier
    ∃ roots deeds, Accounts roots before commands deeds ∧ before.2.FetchesRoots roots deeds := by
  obtain ⟨k, hk, hs⟩ := exists_names hstart (t := .reading) rfl earlier
  exact hasHandles.exists_fetching hk hs commands

theorem BridgeSession.exists_fetching {config : Config} {script : Script} {w w' : World}
    {s : BridgeSession} (hstart : start config script w = .ok s w')
    (earlier commands : List Command) :
    let before := stateAfter (s, w') earlier
    ∃ roots deeds, Accounts roots before commands deeds ∧ before.2.FetchesRoots roots deeds := by
  obtain ⟨k, hk, hs⟩ := exists_names hstart (t := .reading) rfl earlier
  exact hasHandles.exists_fetching hk hs commands

theorem Workspace.not_refetches {s : Workspace × World} {c : Command} (hc : c.refetches = false)
    {r : Cache} : ¬ (task s c).refetches r := by
  rintro ⟨hrefetches, -⟩
  exact Bool.false_ne_true (hc.symm.trans hrefetches)

theorem BridgeSession.not_refetches {s : BridgeSession × World} {c : Command}
    (hc : c.refetches = false) {r : Cache} : ¬ (task s c).refetches r := by
  rintro ⟨hrefetches, -⟩
  exact Bool.false_ne_true (hc.symm.trans hrefetches)

/-- **Fetching.** Whether a live cache has to be fetched can always be asked. A read of it makes one
request through the channel of its root, for the path of its root and with an empty body, when the
answer is yes, and does nothing to the world otherwise; with an interval of zero the answer is yes.
So in every session, whatever it has done before, as long as no command is an explicit refresh, a
creation or a write of an attribute: all that is read from a bridge, but by plain requests, is read by
fetches of what is stale. Whatever shares a root, a fetch that follows a good one begins when the
interval of the root has passed since that one ended, at the earliest, and of a root that is served
for ever there is one good fetch at most. -/
theorem fetches_exactly_when_stale :
    (∀ (c : Cache) (w : World),
      let request := c.rootChannel.compose .get c.rootPath (.object [])
      (c.Live w → ∃ stale, outcome c.needsRefresh w = .ok stale ∧
        (c.rootInterval = .millis 0 → stale = true)) ∧
      (outcome c.needsRefresh w ≠ .ok true → after c.value w = w) ∧
      (outcome c.needsRefresh w = .ok true →
        (∃ snapshots, after c.value w =
          { after (c.rootChannel.request .get c.rootPath (.object [])) w with snapshots }) ∧
        ∀ d, c.rootChannel.minDelay = .millis d → ∃ times : List Instant,
          (times.length = 1 ∨ times.length = 2) ∧
          (after c.value w).sent = w.sent ++ times.map (⟨·, request⟩))) ∧
    (∀ (address : String) (port : UInt16) (username : String) (minDelay : Duration)
        (script : Script) (w w' : World) (s : Workspace),
      Workspace.start address port username minDelay script w = .ok s w' →
      ∀ earlier commands, (∀ c ∈ commands, c.refetches = false) →
        let before := Workspace.stateAfter (s, w') earlier
        let later := Workspace.stateAfter before commands
        ∃ roots deeds, Workspace.Accounts roots before commands deeds ∧
          later.2 = before.2.enactAll deeds ∧ before.2.FetchesWhenDue roots deeds ∧
          ((∀ c ∈ commands, ∀ r, ¬ c.Asks r) →
            later.2.reads = before.2.reads ++ (before.2.fetches deeds).flatMap (·.sent))) ∧
    (∀ (config : Config) (script : Script) (w w' : World) (s : BridgeSession),
      BridgeSession.start config script w = .ok s w' →
      ∀ earlier commands, (∀ c ∈ commands, c.refetches = false) →
        let before := BridgeSession.stateAfter (s, w') earlier
        let later := BridgeSession.stateAfter before commands
        ∃ roots deeds, BridgeSession.Accounts roots before commands deeds ∧
          later.2 = before.2.enactAll deeds ∧ before.2.FetchesWhenDue roots deeds ∧
          later.2.reads = before.2.reads ++ (before.2.fetches deeds).flatMap (·.sent)) := by
  refine ⟨fun c w => ⟨fun hlive => ?_, Cache.after_value_of_not_stale, fun hstale => ?_⟩, ?_, ?_⟩
  · refine ⟨c.rootStale w, Cache.needsRefresh_of_live hlive, fun hzero => ?_⟩
    rw [Cache.rootStale, hzero]
    cases w.snapshots.get? c.rootNode <;> rfl
  · obtain ⟨snapshots, hvalue⟩ := Cache.after_value_eq_request hstale
    refine ⟨⟨snapshots, hvalue⟩, fun d hd => ?_⟩
    rw [hvalue]
    exact Channel.sent_request hd .get c.rootPath (.object []) w
  · intro _ _ _ _ _ _ _ _ hstart earlier commands hcommands before later
    obtain ⟨roots, deeds, haccounts, hroots⟩ := Workspace.exists_fetching hstart earlier commands
    have hworld : later.2 = before.2.enactAll deeds := haccounts.world
    have htimely := haccounts.timely fun c hc s r hr => Workspace.not_refetches (hcommands c hc) hr
    refine ⟨roots, deeds, haccounts, hworld, hroots.whenDue htimely, fun hasks => ?_⟩
    rw [hworld]
    exact World.reads_enactAll (haccounts.quiet fun c hc _ => hasks c hc)
  · intro _ _ _ _ _ hstart earlier commands hcommands before later
    obtain ⟨roots, deeds, haccounts, hroots⟩ := BridgeSession.exists_fetching hstart earlier commands
    have hworld : later.2 = before.2.enactAll deeds := haccounts.world
    have htimely := haccounts.timely fun c hc s r hr => BridgeSession.not_refetches (hcommands c hc) hr
    refine ⟨roots, deeds, haccounts, hworld, hroots.whenDue htimely, ?_⟩
    rw [hworld]
    exact World.reads_enactAll (haccounts.quiet fun _ _ _ _ => id)

namespace Lights

def channel : Channel := ⟨"192.168.2.116", 80, "user", .millis 0, 1, 0⟩

/-- A bridge that answers questions for the lights with `replies`, 30 milliseconds after each. -/
def script (replies : List String) : Script :=
  Script.ofLines 30 (replies.map fun reply => .once .get "/api/user/lights" (.ok reply))

/-- A workspace for that bridge. -/
def workspace (replies : List String) : Workspace × World :=
  (⟨0, Table.empty.set Workspace.mainChannel channel, .empty, .empty, .empty⟩,
    { World.start with
      transports := Table.empty.set 0 (script replies), slots := Table.empty.set 1 0, fresh := 2 })

theorem start_eq (replies : List String) :
    Workspace.start "192.168.2.116" 80 "user" (.millis 0) (script replies) World.start =
      .ok (workspace replies).1 (workspace replies).2 := rfl

end Lights

/-- The lights are read twice, and only the second time a fetch is due: 100 milliseconds after the
first one has ended, through whichever cache. -/
theorem lights_fetched_when_due :
    let s := Lights.workspace ["\x7b\"1\":\x7b\x7d\x7d", "\x7b\"1\":\x7b\x7d\x7d"]
    let first := Cache.child (.root 2 "/lights" Lights.channel (.millis 100)) 3 "1"
    let earlier := [Workspace.Command.newRoot "all" "main" "/lights" (.millis 100),
      .newChild "first" "all" "1"]
    let commands := [Workspace.Command.onCache "first" .value, .advance (.millis 60),
      .onCache "all" .value, .advance (.millis 40), .onCache "first" .value]
    let before := Workspace.stateAfter s earlier
    let later := Workspace.stateAfter before commands
    (outcome first.needsRefresh before.2 = .ok true ∧ ∃ times : List Instant,
      (times.length = 1 ∨ times.length = 2) ∧ (after first.value before.2).sent =
        before.2.sent ++ times.map (⟨·, Lights.channel.compose .get "/lights" (.object [])⟩)) ∧
    (∀ c ∈ commands, c.refetches = false) ∧ (∀ c ∈ commands, ∀ r, ¬ c.Asks r) ∧
    later.2.sent.map (·.sentAt) = [0, 130] ∧
    ∃ roots deeds, Workspace.Accounts roots before commands deeds ∧
      later.2 = before.2.enactAll deeds ∧ before.2.FetchesWhenDue roots deeds ∧
      later.2.reads = before.2.reads ++ (before.2.fetches deeds).flatMap (·.sent) := by
  intro s first earlier commands before later
  have hstale : outcome first.needsRefresh before.2 = .ok true := rfl
  have hcommands : ∀ c ∈ commands, c.refetches = false := by decide
  have hasks : ∀ c ∈ commands, ∀ r, ¬ c.Asks r := by
    rintro c hc r ⟨via, path, body, rfl, -⟩
    simp [commands] at hc
  obtain ⟨hreads, hworkspaces, -⟩ := fetches_exactly_when_stale
  obtain ⟨-, hrequest⟩ := ((hreads first before.2).2.2 hstale)
  obtain ⟨roots, deeds, haccounts, hworld, hdue, hall⟩ :=
    hworkspaces _ _ _ _ _ _ _ _ (Lights.start_eq _) earlier commands hcommands
  exact ⟨⟨hstale, hrequest 0 rfl⟩, hcommands, hasks, by decide +kernel,
    roots, deeds, haccounts, hworld, hdue, hall hasks⟩

/-! ## What roots hold -/

/-- After a row of deeds, every root holds its last good reply with the updates since. -/
structure World.HoldsLastReply (w : World) (deeds : List Deed) : Prop where
  /-- Without a good fetch, there is what there was, with the updates since. -/
  unfetched : ∀ node, (∀ f ∈ w.fetches deeds, ¬ f.Good node) →
    (w.enactAll deeds).snapshots.get? node =
      (w.snapshots.get? node).map fun s => { s with value := w.updatedAll node deeds s.value }
  /-- After the last good fetch, there is its reply with the updates since, as old as its end. -/
  fetched : ∀ earlier d later f reply, deeds = earlier ++ d :: later →
    (w.enactAll earlier).fetched? d = some f → f.result = .ok reply →
    (∀ g ∈ (w.enactAll (earlier ++ [d])).fetches later, ¬ g.Good f.node) →
    (w.enactAll deeds).snapshots.get? f.node =
      some ⟨(w.enactAll (earlier ++ [d])).updatedAll f.node later reply, f.ended⟩

theorem World.holdsLastReply {w : World} {deeds : List Deed} (h : ∀ d ∈ deeds, d.Proper) :
    w.HoldsLastReply deeds where
  unfetched _ hnone := snapshots_enactAll h hnone
  fetched earlier d later f reply hdeeds hf hreply hlast := by
    subst hdeeds
    have hlater : ∀ d' ∈ later, d'.Proper := fun d' hd' =>
      h d' (List.mem_append_right earlier (List.mem_cons_of_mem d hd'))
    exact snapshots_after_fetch hlater hf rfl hreply hlast

namespace Cache

variable {c : Cache} {w : World} {e : Fault}

theorem outcome_fetch (node : NodeId) (path : String) (channel : Channel) (w : World) :
    outcome (fetch node path channel) w = (answer path channel w).map fun _ => () := by
  rw [outcome, fetch_eq]
  cases answer path channel w <;> rfl

theorem snapshots_of_fetch_error {node : NodeId} {path : String} {channel : Channel}
    (h : outcome (fetch node path channel) w = .error e) :
    (after (fetch node path channel) w).snapshots = w.snapshots := by
  rw [outcome_fetch] at h
  cases hanswer : answer path channel w with
  | error e' => rw [after_fetch_of_error hanswer, World.snapshots_answered]
  | ok reply =>
    rw [hanswer] at h
    cases h

/-- A refresh that fails leaves what roots hold as it was. -/
theorem snapshots_of_refresh_error (h : outcome c.refresh w = .error e) :
    (after c.refresh w).snapshots = w.snapshots := by
  rw [outcome, refresh_eq] at h
  rw [after, refresh_eq]
  cases hlinked : c.linked w with
  | error e' => rfl
  | ok _ =>
    rw [hlinked] at h
    exact snapshots_of_fetch_error h

/-- A refresh that gets a reply without a refusal holds that reply, as old as the end of the
request, and changes nothing else. -/
theorem refresh_of_answer {reply : Json} (h : c.Live w)
    (hreply : outcome (c.rootChannel.request .get c.rootPath (.object [])) w = .ok reply)
    (hcheck : Reply.check reply = .ok ()) :
    let answered := after (c.rootChannel.request .get c.rootPath (.object [])) w
    c.refresh w = .ok () { answered with
      snapshots := answered.snapshots.set c.rootNode ⟨reply, answered.now⟩ } := by
  have hanswer : answer c.rootPath c.rootChannel w = .ok reply := by
    simp only [answer, hreply, bind, Except.bind, hcheck, pure, Except.pure]
  rw [refresh_eq, linked_eq_ok_iff.mpr h]
  simp only [fetch_eq, hanswer]
  rfl

/-- What can be read is updated in what its root holds, and the root gets no younger by it. -/
theorem patch_of_peek {v : Json} (h : outcome c.peek w = .ok v) (f : Json → Json) :
    ∃ s, w.snapshots.get? c.rootNode = some s ∧
      c.patch f w = .ok () { w with
        snapshots :=
          w.snapshots.set c.rootNode { s with value := Json.putAt (f v) c.keys s.value } } := by
  rw [outcome_peek] at h
  obtain ⟨s, hs, -, hpatch⟩ := patch_of_view h f
  exact ⟨s, hs, hpatch⟩

/-- All that a refresh through a live cache can fail with: the request is not answered, its answer
has no value in it, or the answer holds a refusal. -/
theorem outcome_refresh_of_live (h : c.Live w) :
    outcome c.refresh w = (do
      let body ← outcome (c.rootChannel.deliver
        (c.rootChannel.compose .get c.rootPath (.object []))) w
      let reply ← Reply.read body
      Reply.check reply) := by
  rw [outcome, refresh_eq, linked_eq_ok_iff.mpr h]
  show outcome (fetch c.rootNode c.rootPath c.rootChannel) w = _
  rw [outcome_fetch, answer, Channel.outcome_request]
  cases outcome (c.rootChannel.deliver (c.rootChannel.compose .get c.rootPath (.object []))) w with
  | error e => rfl
  | ok body =>
    simp only [bind, Except.bind]
    cases Reply.read body with
    | error e => rfl
    | ok reply =>
      dsimp only
      cases Reply.check reply <;> rfl

/-- A read that has to fetch first does to the world what the refresh does. -/
theorem after_value_eq_refresh (hstale : outcome c.needsRefresh w = .ok true) :
    after c.value w = after c.refresh w := by
  rw [after_value_of_stale hstale]
  simp only [after, refresh_eq, (needsRefresh_iff.mp hstale).1]

/-- A read that has to fetch first fails as the refresh does. -/
theorem outcome_value_of_refresh_error (hstale : outcome c.needsRefresh w = .ok true)
    (h : outcome c.refresh w = .error e) : outcome c.value w = .error e := by
  obtain ⟨hlinked, hroot⟩ := needsRefresh_iff.mp hstale
  have hrefresh := refresh_eq c w
  rw [hlinked] at hrefresh
  have hvalue := value_of_stale hlinked hroot
  rw [outcome, hrefresh] at h
  simp only [bind, EStateM.bind] at hvalue
  cases hfetch : fetch c.rootNode c.rootPath c.rootChannel w with
  | ok _ u =>
    rw [hfetch] at h
    cases h
  | error e' u =>
    rw [hfetch] at h hvalue
    cases h
    exact outcome_of_error hvalue

end Cache

/-- **Holdings.** What can be read from a root and the instant of its last refresh are both there or
both missing. In every session a root holds the reply of its last good fetch, with the updates
through live caches since, in order, and counts as refreshed when that fetch ended; nothing else
changes it. The fetches are those that the commands of the session come to, by which all is read that
is read but by plain requests, and the updates are those that the commands ask for. A refresh that
gets a reply without a refusal holds it, as old as the end of the request, and a read of what is
stale does what the refresh does. An update of what can be read takes place, and leaves the age as
it is. A refresh fails when its request does, also after the second attempt, or when the body is
empty or no value, or when the reply holds a refusal; then every root holds what it held, and a read
that made the refresh fails with its error. -/
theorem root_holds_last_good_reply :
    (∀ (node : NodeId) (path : String) (channel : Channel) (interval : Duration) (w : World),
      let root := Cache.root node path channel interval
      match w.snapshots.get? node with
      | none => outcome root.peek w = .error (.cacheEmpty path) ∧
          outcome root.fetchedAt w = .ok none
      | some s => outcome root.peek w = .ok s.value ∧
          outcome root.fetchedAt w = .ok (some s.fetchedAt)) ∧
    (∀ (address : String) (port : UInt16) (username : String) (minDelay : Duration)
        (script : Script) (w w' : World) (s : Workspace),
      Workspace.start address port username minDelay script w = .ok s w' →
      ∀ commands, let later := Workspace.stateAfter (s, w') commands
        ∃ roots deeds, Workspace.Accounts roots (s, w') commands deeds ∧
          later.2 = w'.enactAll deeds ∧ w'.FetchesRoots roots deeds ∧ w'.HoldsLastReply deeds ∧
          ((∀ c ∈ commands, ∀ r, ¬ c.Asks r) →
            later.2.reads = w'.reads ++ (w'.fetches deeds).flatMap (·.sent))) ∧
    (∀ (config : Config) (script : Script) (w w' : World) (s : BridgeSession),
      BridgeSession.start config script w = .ok s w' →
      ∀ commands, let later := BridgeSession.stateAfter (s, w') commands
        ∃ roots deeds, BridgeSession.Accounts roots (s, w') commands deeds ∧
          later.2 = w'.enactAll deeds ∧ w'.FetchesRoots roots deeds ∧ w'.HoldsLastReply deeds ∧
          later.2.reads = w'.reads ++ (w'.fetches deeds).flatMap (·.sent)) ∧
    (∀ (c : Cache) (w : World),
      let request := c.rootChannel.request .get c.rootPath (.object [])
      (c.Live w → ∀ reply, outcome request w = .ok reply → Reply.check reply = .ok () →
        c.refresh w = .ok () { after request w with
          snapshots := (after request w).snapshots.set c.rootNode ⟨reply, (after request w).now⟩ }) ∧
      (c.Live w → outcome c.refresh w = (do
        let body ← outcome (c.rootChannel.deliver
          (c.rootChannel.compose .get c.rootPath (.object []))) w
        let reply ← Reply.read body
        Reply.check reply)) ∧
      (outcome c.needsRefresh w = .ok true → after c.value w = after c.refresh w) ∧
      (∀ f v, outcome c.peek w = .ok v → ∃ s, w.snapshots.get? c.rootNode = some s ∧
        c.patch f w = .ok () { w with
          snapshots :=
            w.snapshots.set c.rootNode { s with value := Json.putAt (f v) c.keys s.value } }) ∧
      ∀ e, outcome c.refresh w = .error e →
        (after c.refresh w).snapshots = w.snapshots ∧
        (outcome c.needsRefresh w = .ok true → outcome c.value w = .error e)) := by
  refine ⟨fun node path channel interval w => ?_, ?_, ?_,
    fun c w => ⟨fun hlive reply => Cache.refresh_of_answer hlive, Cache.outcome_refresh_of_live,
      Cache.after_value_eq_refresh, fun f v hv => Cache.patch_of_peek hv f,
      fun e he => ⟨Cache.snapshots_of_refresh_error he, fun hstale =>
        Cache.outcome_value_of_refresh_error hstale he⟩⟩⟩
  · cases h : w.snapshots.get? node with
    | none => simp [outcome, Cache.peek, Cache.rootValue, Cache.fetchedAt, h]
    | some s => simp [outcome, Cache.peek, Cache.rootValue, Cache.fetchedAt, h]
  · intro _ _ _ _ _ _ _ _ hstart commands later
    obtain ⟨roots, deeds, haccounts, hroots⟩ := Workspace.exists_fetching hstart [] commands
    have hworld : later.2 = _ := haccounts.world
    refine ⟨roots, deeds, haccounts, hworld, hroots, World.holdsLastReply haccounts.proper,
      fun hasks => ?_⟩
    rw [hworld]
    exact World.reads_enactAll (haccounts.quiet fun c hc _ => hasks c hc)
  · intro _ _ _ _ _ hstart commands later
    obtain ⟨roots, deeds, haccounts, hroots⟩ := BridgeSession.exists_fetching hstart [] commands
    have hworld : later.2 = _ := haccounts.world
    refine ⟨roots, deeds, haccounts, hworld, hroots, World.holdsLastReply haccounts.proper, ?_⟩
    rw [hworld]
    exact World.reads_enactAll (haccounts.quiet fun _ _ _ _ => id)

/-- The lights are had once and refused then. -/
theorem lights_held_when_refused :
    let s := Lights.workspace ["\x7b\"1\":\x7b\x7d\x7d", "[\x7b\"error\":\x7b\x7d\x7d]"]
    let all := Cache.root 2 "/lights" Lights.channel (.millis 0)
    let make := Workspace.Command.newRoot "all" "main" "/lights" (.millis 0)
    let commands := [make, .onCache "all" .value]
    let made := (Workspace.stateAfter s [make]).2
    let w := (Workspace.stateAfter s commands).2
    (∃ reply u, all.refresh made = .ok () u ∧ u.snapshots.get? 2 = some ⟨reply, 30⟩) ∧
    (∃ roots deeds, Workspace.Accounts roots s commands deeds ∧ w = s.2.enactAll deeds ∧
      s.2.FetchesRoots roots deeds ∧ s.2.HoldsLastReply deeds ∧
      w.reads = s.2.reads ++ (s.2.fetches deeds).flatMap (·.sent)) ∧
    outcome all.needsRefresh w = .ok true ∧
    ∃ e, outcome all.refresh w = .error e ∧ (after all.refresh w).snapshots = w.snapshots ∧
      outcome all.value w = .error e ∧ after all.value w = after all.refresh w := by
  intro s all make commands made w
  have hstale : outcome all.needsRefresh w = .ok true := by
    apply eq_ok_of_toOption
    decide +kernel
  have hrefused : (outcome all.refresh w).toOption = none := by decide +kernel
  have hasks : ∀ c ∈ commands, ∀ r, ¬ c.Asks r := by
    rintro c hc r ⟨via, path, body, rfl, -⟩
    simp [commands, make] at hc
  have hanswered : (outcome (Lights.channel.request .get "/lights" (.object [])) made >>=
      Reply.check).toOption = some () := by decide +kernel
  have hended : (after (Lights.channel.request .get "/lights" (.object [])) made).now = 30 := by
    decide +kernel
  obtain ⟨-, hworkspaces, -, hrefreshes⟩ := root_holds_last_good_reply
  obtain ⟨roots, deeds, haccounts, hworld, hroots, hholds, hreads⟩ :=
    hworkspaces _ _ _ _ _ _ _ _ (Lights.start_eq _) commands
  refine ⟨?_, ⟨roots, deeds, haccounts, hworld, hroots, hholds, hreads hasks⟩, hstale, ?_⟩
  · cases hreply : outcome (Lights.channel.request .get "/lights" (.object [])) made with
    | error e =>
      rw [hreply] at hanswered
      cases hanswered
    | ok reply =>
      rw [hreply] at hanswered
      refine ⟨reply, _, (hrefreshes all made).1 nofun reply hreply (eq_ok_of_toOption hanswered), ?_⟩
      rw [← hended]
      exact Table.get?_set_self _ _ _
  · cases he : outcome all.refresh w with
    | ok _ =>
      rw [he] at hrefused
      cases hrefused
    | error e =>
      obtain ⟨-, -, hafter, -, hfails⟩ := hrefreshes all w
      obtain ⟨hsame, hvalue⟩ := hfails e he
      exact ⟨e, rfl, hsame, hvalue hstale, hafter hstale⟩

end LightBridge
