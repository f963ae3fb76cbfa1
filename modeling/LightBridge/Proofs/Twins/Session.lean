import LightBridge.Proofs.Session.Spacing
import LightBridge.Proofs.Twins.Table

/-!
# Sessions side by side

Sessions correspond when their bridges do, and so do the caches and changes that they keep. The same
commands, when they use nothing that is set apart, do the same in both.
-/

namespace LightBridge

variable {t : Twins} {n m : Nat} {α : Type}

namespace Twins

/-- Two sessions correspond, the names that are set apart excepted. -/
structure Sessions (t : Twins) (keptApart changesApart : String → Prop) (n : Nat)
    (s s' : BridgeSession) : Prop where
  bridge : (Tie.named t Bridge).Rel n s.bridge s'.bridge
  kept : t.Tables n keptApart s.kept s'.kept
  changes : t.Tables n changesApart s.changes s'.changes

/-- Sessions. -/
def sessions (t : Twins) (keptApart changesApart : String → Prop) : Tie BridgeSession where
  Rel := t.Sessions keptApart changesApart
  mono hnm h := ⟨(Tie.named t Bridge).mono hnm h.bridge, h.kept.mono hnm, h.changes.mono hnm⟩

end Twins

/-! ## What a command may do -/

instance : Overflow ClientError where
  overflows
    | .fault e => e = .timeOverflow
    | _ => False

/-- An endless duration was added to an instant. -/
def Observed.Overflows {ε α : Type} [Overflow ε] (o : Observed ε α) : Prop :=
  ∃ e, o.outcome = .error e ∧ Overflow.overflows e

theorem Act.alike_observe {x x' : Act α} (hx : ActsAlike t n (.same α) x x') :
    ActsAlike t n (.such fun o => o.Overflows → t.endless) (observe x) (observe x') := by
  refine .intro fun w w' hn hworlds => ?_
  have hends := hx w w' hn hworlds trivial
  simp only [observe]
  generalize x w = r at hends ⊢
  generalize x' w' = r' at hends ⊢
  have hseen {u u' : World} (o : Except ClientError α) (hmoved : t.Moved id .any w w' u u') :
      (⟨o, u'.now, u'.sent.drop w'.sent.length⟩ : Observed ClientError α) =
        ⟨o, u.now, u.sent.drop w.sent.length⟩ := by
    have hnow : u'.now = u.now := hmoved.worlds.now
    have hsent : u'.sent.drop w'.sent.length = u.sent.drop w.sent.length := hmoved.drop_sent
    rw [hnow, hsent]
  cases hends with
  | ok ha hmoved =>
    cases ha
    refine .ok ⟨hseen _ hmoved, ?_⟩ hmoved
    rintro ⟨e, he, -⟩
    cases he
  | error h hmoved =>
    refine .ok ⟨hseen _ hmoved, ?_⟩ hmoved
    rintro ⟨e, he, hoverflows⟩
    cases he
    exact h hoverflows

namespace BridgeSession

variable {keptApart changesApart : String → Prop} {Q : Tie α} {s s' : BridgeSession}

/-- Whether an endless time is to pass. -/
def Timed.isEndless : Timed α → Bool
  | .operation _ => false
  | .advance d => d = .never

namespace Command

/-- Whether a command lets an endless time pass. -/
def isEndless : Command → Bool
  | .advance d => d = .never
  | .withLight _ calls => calls.any Timed.isEndless
  | .withGroup _ calls => calls.any Timed.isEndless
  | .withSchedule _ calls => calls.any Timed.isEndless
  | .withScene _ calls => calls.any Timed.isEndless
  | .withSensor _ calls => calls.any Timed.isEndless
  | _ => false

/-- The names of kept caches that a command uses. -/
def keptUsed : Command → List String
  | .onKept key _ => [key]
  | _ => []

/-- The names of changes that a command uses. -/
def changesUsed : Command → List String
  | .onChange key _ | .commit key => [key]
  | _ => []

/-- A command leaves the names alone that are set apart, and does not do what may not be done. -/
structure Fits (t : Twins) (keptApart changesApart : String → Prop) (c : Command) : Prop where
  endless : c.isEndless = true → t.endless
  asked : c.reconnects = true → ∀ r, t.asked r
  kept : ∀ name ∈ c.keptUsed, ¬ keptApart name
  changes : ∀ name ∈ c.changesUsed, ¬ changesApart name

end Command

/-- The answer with other names. -/
def Answer.rename (r : Renaming) : Answer → Answer
  | .info bridge next => .info (bridge.rename r) next
  | .numbered answer => .numbered (Named.rename r answer)
  | .scenes answer => .scenes (Named.rename r answer)
  | answer => answer

/-- What is in an answer belongs to both runs, and an endless duration was added only where that may
be tried. -/
def Answer.Within (t : Twins) (n : Nat) : Answer → Prop
  | .info bridge _ => Named.Within t n bridge
  | .numbered answer => Named.Within t n answer
  | .scenes answer => Named.Within t n answer
  | .readings all => ∀ seen ∈ all, seen.Overflows → t.endless
  | _ => True

instance : Named Answer where
  rename := Answer.rename
  Within := Answer.Within
  mono {t n m answer} hnm h := by
    cases answer with
    | info bridge next => exact Named.mono (a := bridge) hnm h
    | numbered answer => exact Named.mono (a := answer) hnm h
    | scenes answer => exact Named.mono (a := answer) hnm h
    | readings all => exact h
    | _ => trivial
  rename_rename r r' answer := by
    cases answer with
    | info bridge next => exact congrArg (Answer.info · next) (Named.rename_rename r r' bridge)
    | numbered answer => exact congrArg Answer.numbered (Named.rename_rename r r' answer)
    | scenes answer => exact congrArg Answer.scenes (Named.rename_rename r r' answer)
    | _ => rfl

/-! ## Acting on the parts of a session -/

theorem alike_onBridge {x x' : ActOn Bridge α} (hx : ActsOnAlike t n (.named t Bridge) Q x x') :
    ActsOnAlike t n (t.sessions keptApart changesApart) Q (onBridge x) (onBridge x') :=
  hx.within (fun _ _ _ hs => hs.bridge) fun _ _ _ _ _ hs hb => ⟨hb, hs.kept, hs.changes⟩

theorem alike_asking {f : Bridge → Act α}
    (hf : ∀ m (b : Bridge), b.Within t m → ActsAlike t m Q (f b) (f (b.rename t.across))) :
    ActsOnAlike t n (t.sessions keptApart changesApart) Q (asking f) (asking f) := by
  refine Alike.asClient (Alike.current.bind fun m s s' _ hs => ?_)
  obtain ⟨heq, hb⟩ := hs.bridge
  rw [heq]
  exact .lift (hf m s.bridge hb)

theorem alike_onSection {x x' : ActOn (Collection Int32) α} (which : Bridge.Section)
    (hx : ActsOnAlike t n (.named t (Collection Int32)) Q x x') :
    ActsOnAlike t n (.named t Bridge) Q (Bridge.onSection which x) (Bridge.onSection which x') := by
  cases which with
  | lights => exact Bridge.alike_onLights hx
  | groups => exact Bridge.alike_onGroups hx
  | schedules => exact Bridge.alike_onSchedules hx
  | sensors => exact Bridge.alike_onSensors hx

theorem alike_performOn (which : Bridge.Section) (operation : Collection.Operation Int32) :
    ActsOnAlike t n (.named t (Collection Int32)) (.named t (Collection.Answer Int32))
      (Bridge.performOn which operation) (Bridge.performOn which operation) := by
  cases which with
  | lights | schedules => exact Collection.alike_perform operation
  | groups => exact Groups.alike_perform operation
  | sensors =>
    have hplain := Collection.alike_perform (t := t) (n := n) operation
    cases operation with
    -- the sensors describe themselves in their own way and do the rest as any collection
    | describe =>
      refine Collection.alike_reading fun m l _ _ => .pure ⟨?_, trivial⟩
      unfold Sensors.describe
      rw [Collection.describe_rename]
      rfl
    | _ => exact hplain

theorem alike_entry (which : Bridge.Section) (id : Int32) :
    ActsOnAlike t n (.named t Bridge) (.named t (Resource Int32)) (Bridge.entry which id)
      (Bridge.entry which id) := by
  refine alike_onSection which ?_
  split
  · exact Groups.alike_get id
  · exact Collection.alike_get id

theorem sectionCache_rename (r : Renaming) (b : Bridge) (which : Bridge.Section) :
    (b.rename r).sectionCache which = (b.sectionCache which).rename r := by
  cases which <;> rfl

theorem within_sectionCache {b : Bridge} (hb : b.Within t n) (which : Bridge.Section) :
    (b.sectionCache which).Within t n := by
  cases which with
  | lights => exact hb.connection.lights.cache
  | groups => exact hb.connection.groups.cache
  | schedules => exact hb.connection.schedules.cache
  | sensors => exact hb.connection.sensors.cache

/-! ## Handles -/

theorem alike_readings {perform perform' : α → Act Reading}
    (hperform : ∀ m operation, n ≤ m → ActsAlike t m (.same Reading) (perform operation)
      (perform' operation)) {calls : List (Timed α)}
    (hcalls : calls.any Timed.isEndless = true → t.endless) :
    ActsAlike t n (.such fun all => ∀ seen ∈ all, seen.Overflows → t.endless)
      (readings perform calls) (readings perform' calls) := by
  -- the next name grows from call to call, and the handle keeps the names that it has
  induction calls generalizing n with
  | nil => exact .pure ⟨rfl, nofun⟩
  | cons call rest ih =>
    have hrest (m : Nat) (hm : n ≤ m) := ih (n := m)
      (fun m' operation hm' => hperform m' operation (Nat.le_trans hm hm'))
      fun h => hcalls (by rw [List.any_cons, h, Bool.or_true])
    -- a call that fails is only seen to fail, so the rest is done in any case
    have hcall {x x' : Act Reading} (hx : ActsAlike t n (.same Reading) x x') :
        ActsAlike t n (.such fun all => ∀ seen ∈ all, seen.Overflows → t.endless)
          (do let seen ← Act.observe x; pure (seen :: (← readings perform rest)))
          (do let seen ← Act.observe x'; pure (seen :: (← readings perform' rest))) := by
      refine (Act.alike_observe hx).bind fun m seen _ hm h => ?_
      obtain ⟨rfl, hseen⟩ := h
      refine (hrest m hm).bind fun m' all _ _ h => ?_
      obtain ⟨rfl, hall⟩ := h
      exact .pure ⟨rfl, List.forall_mem_cons.mpr ⟨hseen, hall⟩⟩
    cases call with
    | operation operation => exact hcall (hperform n operation (Nat.le_refl n))
    | advance d =>
      refine hcall ((Act.alike_wait fun hd => hcalls ?_).andThen (.pure rfl))
      rw [List.any_cons, hd]
      rfl

theorem alike_withHandle {η : Type} [Named η] {get : ActOn Bridge η} {perform : η → α → Act Reading}
    (hget : ActsOnAlike t n (.named t Bridge) (.named t η) get get)
    (hperform : ∀ m handle operation, Named.Within t m handle →
      ActsAlike t m (.same Reading) (perform handle operation)
        (perform (Named.rename t.across handle) operation))
    {calls : List (Timed α)} (hcalls : calls.any Timed.isEndless = true → t.endless) :
    ActsOnAlike t n (t.sessions keptApart changesApart) (.named t Answer)
      (withHandle get perform calls) (withHandle get perform calls) := by
  refine (Alike.liftActOn (alike_onBridge hget)).bind fun m handle _ _ h => ?_
  obtain ⟨rfl, hhandle⟩ := h
  refine (Alike.liftStep (alike_readings (fun m' operation hm' =>
    hperform m' handle operation (Named.mono hm' hhandle)) hcalls)).bind fun m' all _ _ h => ?_
  obtain ⟨rfl, hall⟩ := h
  exact .pure ⟨rfl, hall⟩

/-! ## Names -/

theorem alike_keep (name : String) {c : Cache} (hc : c.Within t n) :
    ActsOnAlike t n (t.sessions keptApart changesApart) (.named t Answer) (keep name c)
      (keep name (c.rename t.across)) := by
  refine (Alike.update fun m s s' hm hs => ?_).andThen (.pure ⟨rfl, trivial⟩)
  exact ⟨hs.bridge, hs.kept.set name (hc.mono hm), hs.changes⟩

theorem alike_keepChange (name : String) {c : Change} (hc : c.Within t n) :
    ActsOnAlike t n (t.sessions keptApart changesApart) (.named t Answer) (keepChange name c)
      (keepChange name (c.rename t.across)) := by
  refine (Alike.update fun m s s' hm hs => ?_).andThen (.pure ⟨rfl, trivial⟩)
  exact ⟨hs.bridge, hs.kept, hs.changes.set name (Named.mono hm hc)⟩

theorem alike_found {σ : Type} [Named α] {I : Tie σ} {e : SessionError}
    (he : Overflow.overflows e → t.endless) {o o' : Option α}
    (ho : (Tie.named t (Option α)).Rel n o o') :
    ActsOnAlike t n I (.named t α) (Step.found e o : Step σ α) (Step.found e o') := by
  obtain ⟨rfl, hwithin⟩ := ho
  cases o with
  | none => exact .throw he
  | some a => exact .pure ⟨rfl, hwithin a rfl⟩

theorem alike_change {name : String} (hname : ¬ changesApart name) :
    ActsOnAlike t n (t.sessions keptApart changesApart) (.named t Change) (change name)
      (change name) :=
  Alike.here.bind fun _ _ _ _ hs =>
    alike_found (e := .noChange) nofun (hs.changes.shared _ hname)

/-! ## Commands -/

theorem alike_pair (hasked : ∀ r, t.asked r) :
    ActsOnAlike t n (t.sessions keptApart changesApart) (.named t Answer) pair pair := by
  refine (Alike.asClient (alike_onBridge (Bridge.alike_pair hasked))).bind fun m ending _ _ h => ?_
  cases h
  cases ending with
  | user username => exact .pure ⟨rfl, trivial⟩
  | unfinished => exact .throw nofun
  | timeout =>
    -- the error names the timeout, which both have configured
    refine Alike.here.bind fun m' s s' _ hs => ?_
    obtain ⟨heq, -⟩ := hs.bridge
    rw [heq]
    exact .throw nofun

theorem alike_perform {command : Command} (h : command.Fits t keptApart changesApart) :
    ActsOnAlike t n (t.sessions keptApart changesApart) (.named t Answer) (perform command)
      (perform command) := by
  cases command with
  | advance d =>
    refine (Alike.liftStep (Act.alike_wait fun hd => h.endless ?_)).andThen (.pure ⟨rfl, trivial⟩)
    exact decide_eq_true hd
  | prepare line =>
    refine Alike.here.bind fun m s s' _ hs => ?_
    obtain ⟨heq, hb⟩ := hs.bridge
    rw [heq]
    exact (Alike.liftStep (Act.alike_changeScript hb.transport _)).andThen (.pure ⟨rfl, trivial⟩)
  | info =>
    refine Alike.here.bind fun m s s' _ hs => ?_
    obtain ⟨heq, hb⟩ := hs.bridge
    rw [heq]
    refine (Alike.liftStep (Act.alike_nextAllowed hb.connection.channel.slot.1)).bind
      fun m' next _ hm' h => ?_
    cases h
    exact .pure ⟨rfl, Named.mono hm' hb⟩
  | name | apiVersion =>
    refine (alike_asking fun m b hb => Bridge.alike_aboutItself hb _).map fun _ _ _ _ h => ?_
    cases h
    exact ⟨rfl, trivial⟩
  | refresh =>
    have hrefresh : ActsOnAlike t n (t.sessions keptApart changesApart) .any
        (asking Bridge.refresh) (asking Bridge.refresh) :=
      alike_asking fun m b hb => Bridge.alike_refresh hb
    exact hrefresh.andThen (.pure ⟨rfl, trivial⟩)
  | config =>
    refine Alike.here.bind fun m s s' _ hs => ?_
    obtain ⟨heq, -⟩ := hs.bridge
    rw [heq]
    exact .pure ⟨rfl, trivial⟩
  | onState operation =>
    refine Alike.here.bind fun m s s' _ hs => ?_
    obtain ⟨heq, hb⟩ := hs.bridge
    rw [heq]
    refine (Alike.liftStep (Cache.alike_perform hb.connection.state operation)).bind
      fun m' answer _ _ h => ?_
    cases h
    exact .pure ⟨rfl, trivial⟩
  | setUsername username =>
    exact (Alike.liftActOn (alike_onBridge (Bridge.alike_setUsername (h.asked rfl) username))).andThen
      (.pure ⟨rfl, trivial⟩)
  | setTransport lines =>
    refine Alike.here.bind fun m s s' _ hs => ?_
    obtain ⟨heq, hb⟩ := hs.bridge
    rw [heq]
    refine (Alike.liftStep (Act.alike_latency hb.transport)).bind fun m₁ latency _ _ h' => ?_
    cases h'
    refine (Alike.liftStep (Act.alike_addTransport _)).bind fun m₂ transport _ _ h' => ?_
    obtain ⟨rfl, htransport⟩ := h'
    have hswitch := Bridge.alike_setTransport (h.asked rfl) htransport
    exact (Alike.liftActOn (alike_onBridge hswitch)).andThen (.pure ⟨rfl, trivial⟩)
  | pair => exact alike_pair (h.asked rfl)
  | onSection which operation =>
    refine (Alike.liftActOn (alike_onBridge (alike_onSection which
      (alike_performOn which operation)))).bind fun m answer _ _ h => ?_
    obtain ⟨rfl, hanswer⟩ := h
    exact .pure ⟨rfl, hanswer⟩
  | onScenes operation =>
    refine (Alike.liftActOn (alike_onBridge (Bridge.alike_onScenes
      (Collection.alike_perform operation)))).bind fun m answer _ _ h => ?_
    obtain ⟨rfl, hanswer⟩ := h
    exact .pure ⟨rfl, hanswer⟩
  | sensorsOfKind kind =>
    refine (Alike.asClient (alike_onBridge (Bridge.alike_onSensors
      (Sensors.alike_getAllOfKind kind)))).bind fun m found _ _ h => ?_
    obtain ⟨rfl, -⟩ := h
    have hids : (Named.rename t.across found).map (·.id) = found.map (·.id) := List.map_map
    rw [hids]
    exact .pure ⟨rfl, trivial⟩
  | withLight id calls =>
    exact alike_withHandle (Bridge.alike_light id)
      (fun _ _ operation hh => Light.alike_perform hh operation) h.endless
  | withGroup id calls =>
    exact alike_withHandle (Bridge.alike_group id)
      (fun _ _ operation hh => Group.alike_perform hh operation) h.endless
  | withSchedule id calls =>
    exact alike_withHandle (Bridge.alike_schedule id)
      (fun _ _ operation hh => Schedule.alike_perform hh operation) h.endless
  | withScene id calls =>
    exact alike_withHandle (Bridge.alike_scene id)
      (fun _ _ operation hh => Scene.alike_perform hh operation) h.endless
  | withSensor id calls =>
    exact alike_withHandle (Bridge.alike_sensor id)
      (fun _ _ operation hh => Sensor.alike_perform hh operation) h.endless
  | keepSection name which =>
    refine Alike.here.bind fun m s s' _ hs => ?_
    obtain ⟨heq, hb⟩ := hs.bridge
    have hcache := sectionCache_rename t.across s.bridge which
    rw [heq]
    refine Eq.subst (motive := fun c => ActsOnAlike t m _ _ _ (keep name c)) hcache.symm ?_
    exact alike_keep name (within_sectionCache hb which)
  | keepScenes name =>
    refine Alike.here.bind fun m s s' _ hs => ?_
    obtain ⟨heq, hb⟩ := hs.bridge
    rw [heq]
    exact alike_keep name hb.connection.scenes.cache
  | keepEntry name which id =>
    refine (Alike.liftActOn (alike_onBridge (alike_entry which id))).bind fun m r _ _ h => ?_
    obtain ⟨rfl, hr⟩ := h
    exact alike_keep name hr
  | keepScene name id =>
    refine (Alike.liftActOn (alike_onBridge (Bridge.alike_onScenes (Collection.alike_get id)))).bind
      fun m r _ _ h => ?_
    obtain ⟨rfl, hr⟩ := h
    exact alike_keep name hr
  | onKept name operation =>
    refine Alike.here.bind fun m s s' _ hs => ?_
    have hkept := hs.kept.shared _ (h.kept name List.mem_cons_self)
    refine (alike_found (e := .unknown name) nofun hkept).bind fun m' c _ _ h => ?_
    obtain ⟨rfl, hc⟩ := h
    refine (Alike.liftStep (Cache.alike_perform hc operation)).bind fun m'' answer _ _ h => ?_
    cases h
    exact .pure ⟨rfl, trivial⟩
  | changeLight name id =>
    refine (Alike.liftActOn (alike_onBridge (Bridge.alike_light id))).bind fun m light _ _ h => ?_
    obtain ⟨rfl, hlight⟩ := h
    refine (Alike.asClient (Alike.beside (Handle.alike_change hlight _ _))).bind
      fun m' c _ _ h => ?_
    obtain ⟨rfl, hc⟩ := h
    exact alike_keepChange name hc
  | changeGroup name id =>
    refine (Alike.liftActOn (alike_onBridge (Bridge.alike_group id))).bind fun m group _ _ h => ?_
    obtain ⟨rfl, hgroup⟩ := h
    refine (Alike.asClient (Alike.beside (Handle.alike_change hgroup _ _))).bind
      fun m' c _ _ h => ?_
    obtain ⟨rfl, hc⟩ := h
    exact alike_keepChange name hc
  | onChange name operation =>
    refine (alike_change (h.changes name List.mem_cons_self)).bind fun m c _ _ h => ?_
    obtain ⟨rfl, hc⟩ := h
    have hperform : (Named.rename t.across c).perform operation =
        ((c.perform operation).1.rename t.across, (c.perform operation).2) :=
      Change.perform_rename t.across c operation
    rw [hperform]
    refine (Alike.update fun m' s s' hm' hs => ?_).andThen (.pure ⟨rfl, trivial⟩)
    exact ⟨hs.bridge, hs.kept, hs.changes.set name (Named.mono hm' (hc.perform operation))⟩
  | commit name =>
    -- the change is given up before it is sent, whatever becomes of it
    refine (alike_change (h.changes name List.mem_cons_self)).bind fun m c _ _ h => ?_
    obtain ⟨rfl, hc⟩ := h
    refine (Alike.update fun m' s s' _ hs => ?_).andThen ?_
    · exact ⟨hs.bridge, hs.kept, hs.changes.erase name⟩
    · refine (Alike.liftStep (Change.alike_commit hc)).bind fun m' acknowledged _ _ h => ?_
      cases h
      exact .pure ⟨rfl, trivial⟩

end BridgeSession

end LightBridge
