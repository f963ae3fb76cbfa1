import LightBridge.Change.Operation
import LightBridge.Proofs.Change.Play
import LightBridge.Proofs.Twins.Collection
import LightBridge.Resource.Group
import LightBridge.Resource.Light
import LightBridge.Resource.Scene
import LightBridge.Resource.Schedule

/-!
# Changes and handles side by side
-/

namespace LightBridge

variable {t : Twins} {n m : Nat} {α : Type}

/-! ## Changes -/

namespace Change

/-- The change with other names. -/
def rename (r : Renaming) (c : Change) : Change :=
  { c with channel := c.channel.rename r, cache := Named.rename r c.cache }

/-- The change and its cache belong to both runs. -/
structure Within (t : Twins) (n : Nat) (c : Change) : Prop where
  channel : c.channel.Within t n
  cache : Named.Within t n c.cache

instance : Named Change where
  rename := rename
  Within := Within
  mono hnm h := ⟨h.channel.mono hnm, Named.mono hnm h.cache⟩
  rename_rename r r' c := by
    simp only [rename, Named.rename_rename]
    rfl

variable {c : Change}

theorem foldl_set_rename (r : Renaming) (c : Change) (setters : List Setter) :
    setters.foldl set (c.rename r) = (setters.foldl set c).rename r := by
  induction setters generalizing c with
  | nil => rfl
  | cons s rest ih => exact ih (c.set s)

theorem stages_rename (r : Renaming) (c : Change) (setters : List Setter) :
    (c.rename r).stages setters = (c.stages setters).map (rename r) := by
  induction setters generalizing c with
  | nil => rfl
  | cons s rest ih => exact congrArg _ (ih (c.set s))

/-- What is asked of a pending change has nothing to do with names. -/
theorem perform_rename (r : Renaming) (c : Change) (operation : Operation) :
    (c.rename r).perform operation = ((c.perform operation).1.rename r, (c.perform operation).2) := by
  cases operation with
  | set setters =>
    have hrequests : ((c.rename r).stages setters).map (·.request) =
        (c.stages setters).map (·.request) := by
      rw [stages_rename, List.map_map]
      rfl
    exact Prod.ext (foldl_set_rename r c setters) (congrArg Answer.requests hrequests)
  | trim | pending => rfl

theorem Within.set (h : c.Within t n) (s : Setter) : (c.set s).Within t n := ⟨h.channel, h.cache⟩

theorem Within.perform (h : c.Within t n) (operation : Operation) :
    (c.perform operation).1.Within t n := by
  cases operation with
  | set setters =>
    show (setters.foldl Change.set c).Within t n
    induction setters generalizing c with
    | nil => exact h
    | cons s rest ih => exact ih (h.set s)
  | trim => exact ⟨h.channel, h.cache⟩
  | pending => exact h

theorem alike_writeBack {cache : Option Cache} (hcache : Named.Within t n cache)
    (request : Fields) :
    ActsAlike t n .any (writeBack cache request)
      (writeBack (Named.rename t.across cache) request) := by
  cases cache with
  | none => exact .pure trivial
  | some cache =>
    show ActsAlike t n .any (writeBack (some cache) request)
      (writeBack (some (cache.rename t.across)) request)
    rw [writeBack_eq_forgiving, writeBack_eq_forgiving]
    exact Act.alike_forgiving (Cache.alike_patch (hcache cache rfl) (patchState request))

theorem alike_commit (hc : c.Within t n) :
    ActsAlike t n (.same Bool) c.commit (c.rename t.across).commit := by
  have hbody : (c.rename t.across).body? = c.body? := rfl
  unfold commit
  rw [hbody]
  -- a change without a body sends nothing, and one that is refused writes nothing back
  cases c.body? with
  | none => exact .pure rfl
  | some body =>
    refine (Channel.alike_write hc.channel c.path body).bind fun m acknowledged _ hm h => ?_
    cases h
    cases acknowledged with
    | false => exact .pure rfl
    | true => exact (alike_writeBack (Named.mono hm hc.cache) body).andThen (.pure rfl)

end Change

/-! ## Handles -/

namespace Handle

variable {ι : Type}

/-- The handle with other names. -/
def rename (r : Renaming) (h : Handle ι) : Handle ι :=
  { h with cache := h.cache.rename r, channel := h.channel.rename r }

/-- The handle belongs to both runs. -/
structure Within (t : Twins) (n : Nat) (h : Handle ι) : Prop where
  cache : h.cache.Within t n
  channel : h.channel.Within t n

instance : Named (Handle ι) where
  rename := rename
  Within := Within
  mono hnm h := ⟨h.cache.mono hnm, h.channel.mono hnm⟩
  rename_rename r r' h := by
    simp only [rename, Cache.rename_rename]
    rfl

variable {h : Handle ι}

theorem alike_look (hh : h.Within t n) (f : Json → α) :
    ActsAlike t n (.same α) (h.look f) ((h.rename t.across).look f) :=
  (Cache.alike_value hh.cache).map fun _ _ _ _ h => congrArg f h

theorem alike_write (hh : h.Within t n) (path : String) (fields : Fields) :
    ActsAlike t n (.same Bool) (h.write path fields) ((h.rename t.across).write path fields) := by
  refine (Channel.alike_write hh.channel path fields).bind fun m acknowledged _ hm h => ?_
  cases h
  cases acknowledged with
  | false => exact .pure rfl
  | true => exact (Cache.alike_refresh (hh.cache.mono hm)).andThen (.pure rfl)

theorem alike_change (hh : h.Within t n) (key path : String) :
    ActsAlike t n (.named t Change) (h.change key path) ((h.rename t.across).change key path) := by
  refine (Cache.alike_newChild hh.cache key).bind fun m cache _ hm h => ?_
  obtain ⟨rfl, hcache⟩ := h
  -- the new child reads its parent once, for the state that the change starts from
  refine (Cache.alike_value hcache).bind fun m' baseline _ hm' h => ?_
  cases h
  refine .pure ⟨rfl, hh.channel.mono (Nat.le_trans hm hm'), fun c hc => ?_⟩
  cases hc
  exact hcache.mono hm'

theorem alike_reading {x x' : Act α} (hx : ActsAlike t n (.same α) x x') (f : α → Reading) :
    ActsAlike t n (.same Reading) (f <$> x) (f <$> x') :=
  hx.map fun _ _ _ _ h => congrArg f h

theorem alike_refresh (hh : h.Within t n) :
    ActsAlike t n (.same Reading) (do h.refresh; pure .nothing)
      (do (h.rename t.across).refresh; pure .nothing) :=
  (Cache.alike_refresh hh.cache).andThen (.pure rfl)

end Handle

open Handle

instance : Named Light := .wrapped Light.toHandle Light.mk fun _ => rfl
instance : Named Group := .wrapped Group.toHandle Group.mk fun _ => rfl
instance : Named Schedule := .wrapped Schedule.toHandle Schedule.mk fun _ => rfl
instance : Named Scene := .wrapped Scene.toHandle Scene.mk fun _ => rfl
instance : Named Sensor := .wrapped Sensor.toHandle Sensor.mk fun _ => rfl

theorem Handle.alike_commit_change {h : Handle Int32} (hh : h.Within t n) (key path : String)
    (settings : Change → Change) (hrename : ∀ r c, settings (c.rename r) = (settings c).rename r)
    (hwithin : ∀ m c, c.Within t m → (settings c).Within t m) :
    ActsAlike t n (.same Bool) (do let c ← h.change key path; (settings c).commit)
      (do let c ← (h.rename t.across).change key path; (settings c).commit) := by
  refine (alike_change hh key path).bind fun m c _ _ h => ?_
  obtain ⟨rfl, hc⟩ := h
  have hsettings := Change.alike_commit (hwithin m c hc)
  rw [← hrename] at hsettings
  exact hsettings

theorem Light.alike_perform {l : Light} (hl : Named.Within t n l) (operation : Light.Operation) :
    ActsAlike t n (.same Reading) (l.perform operation)
      ((Named.rename t.across l).perform operation) := by
  cases operation with
  | id => exact .pure rfl
  | refresh => exact alike_refresh hl
  | name | kind | model | isOn | isReachable | brightness | colorMode =>
    exact alike_reading (alike_look hl _) _
  | rename name => exact alike_reading (alike_write hl _ _) _
  | setOn on transition =>
    refine alike_reading (alike_commit_change hl _ _
      (fun c => (c.set (.on on)).set (.transition transition)) (fun _ _ => rfl) fun _ _ hc => ?_) _
    exact (hc.set _).set _
  | flash =>
    exact alike_reading (alike_commit_change hl _ _ (fun c => c.set .flash) (fun _ _ => rfl)
      fun _ _ hc => hc.set _) _

theorem Group.alike_activateScene {channel : Channel} (hchannel : channel.Within t n) (id : Int32)
    (scene : String) :
    ActsAlike t n (.same Bool) (activateScene channel id scene)
      (activateScene (channel.rename t.across) id scene) :=
  Channel.alike_write hchannel _ _

theorem Group.alike_perform {g : Group} (hg : Named.Within t n g) (operation : Group.Operation) :
    ActsAlike t n (.same Reading) (g.perform operation)
      ((Named.rename t.across g).perform operation) := by
  cases operation with
  | id => exact .pure rfl
  | refresh => exact alike_refresh hg
  | name | kind | lights | roomClass | allOn | anyOn | actionOn | actionBrightness
    | actionColorMode => exact alike_reading (alike_look hg _) _
  | rename | setLights | setRoomClass => exact alike_reading (alike_write hg _ _) _
  | activateScene scene => exact alike_reading (alike_activateScene hg.channel _ _) _

theorem Schedule.Command.ofJson_ne_timeOverflow {v : Json} {e : Fault}
    (h : Command.ofJson v = .error e) : e ≠ .timeOverflow := by
  unfold Command.ofJson at h
  split at h
  · cases h
  · cases h
    exact Fault.noConfusion

theorem Schedule.alike_perform {s : Schedule} (hs : Named.Within t n s)
    (operation : Schedule.Operation) :
    ActsAlike t n (.same Reading) (s.perform operation)
      ((Named.rename t.across s).perform operation) := by
  cases operation with
  | id => exact .pure rfl
  | refresh => exact alike_refresh hs
  | command =>
    refine alike_reading ((alike_look hs _).bind fun m reported _ _ h => ?_) _
    cases h
    exact Act.alike_ofExcept (fun _ _ => rfl) fun _ => Command.ofJson_ne_timeOverflow
  | name | description | time | status | autodelete => exact alike_reading (alike_look hs _) _
  | set setting => exact alike_reading (alike_write hs _ _) _

theorem Scene.alike_activate {s : Scene} (hs : Named.Within t n s) :
    ActsAlike t n (.same Bool) s.activate (Named.rename t.across s).activate := by
  refine (alike_look hs _).bind fun m kind _ hm h => ?_
  cases h
  have hs := Named.mono hm hs
  cases kind with
  | groupScene =>
    -- the state is read a second time, for the group
    refine (alike_look hs _).bind fun m' group _ hm' h => ?_
    cases h
    exact Group.alike_activateScene (hs.channel.mono hm') _ _
  | lightScene => exact Group.alike_activateScene hs.channel _ _

theorem Scene.alike_perform {s : Scene} (hs : Named.Within t n s) (operation : Scene.Operation) :
    ActsAlike t n (.same Reading) (s.perform operation)
      ((Named.rename t.across s).perform operation) := by
  cases operation with
  | id => exact .pure rfl
  | refresh => exact alike_refresh hs
  | name | kind | group | lights | owner | isLocked | recycle =>
    exact alike_reading (alike_look hs _) _
  | rename | setLights | store => exact alike_reading (alike_write hs _ _) _
  | activate => exact alike_reading (alike_activate hs) _

theorem Sensor.alike_perform {s : Sensor} (hs : Named.Within t n s) (operation : Sensor.Operation) :
    ActsAlike t n (.same Reading) (s.perform operation)
      ((Named.rename t.across s).perform operation) := by
  cases operation with
  | id => exact .pure rfl
  | refresh => exact alike_refresh hs
  | name | kind | model | manufacturer | uniqueId | config | state | isOn | isReachable | battery
    | lastAlert | lastUpdated | buttonEvent => exact alike_reading (alike_look hs _) _
  | rename | setConfig | setState | setOn | sendAlert => exact alike_reading (alike_write hs _ _) _

end LightBridge
