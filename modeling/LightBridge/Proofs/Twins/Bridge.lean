import LightBridge.Bridge.Pairing
import LightBridge.Proofs.Twins.Handle

/-!
# Bridges side by side

Two bridges of one configuration, each with a connection of its own, end alike in whatever is asked of
them. When they switch the user or the transport, the new connections correspond again.
-/

namespace LightBridge

variable {t : Twins} {n m : Nat} {α : Type}

/-- An endless duration of the configuration is added to an instant only where that may be tried.
Without a timeout the pause between two pairing requests is never begun. -/
structure Config.Fits (t : Twins) (config : Config) : Prop where
  minDelay : config.minDelay = .never → t.endless
  pairing : config.pairingInterval = .never → config.pairingTimeout ≠ .millis 0 → t.endless

theorem Config.Fits.withUsername {config : Config} (h : config.Fits t) (username : String) :
    (config.withUsername username).Fits t :=
  ⟨h.minDelay, h.pairing⟩

/-- Everything may be sent that a connection for the configuration sends. -/
def Config.Asks (t : Twins) (config : Config) : Prop :=
  ∀ slot transport method path body, t.asked (Channel.compose
    ⟨config.address, config.port, config.username, config.minDelay, slot, transport⟩
    method path body)

/-! ## Connections -/

namespace Connection

/-- The connection with other names. -/
def rename (r : Renaming) (c : Connection) : Connection where
  channel := c.channel.rename r
  state := c.state.rename r
  lights := c.lights.rename r
  groups := c.groups.rename r
  schedules := c.schedules.rename r
  scenes := c.scenes.rename r
  sensors := c.sensors.rename r

/-- The connection belongs to both runs. -/
structure Within (t : Twins) (n : Nat) (c : Connection) : Prop where
  channel : c.channel.Within t n
  state : c.state.Within t n
  lights : c.lights.Within t n
  groups : c.groups.Within t n
  schedules : c.schedules.Within t n
  scenes : c.scenes.Within t n
  sensors : c.sensors.Within t n

theorem Within.mono {c : Connection} (h : c.Within t n) (hnm : n ≤ m) : c.Within t m :=
  ⟨h.channel.mono hnm, h.state.mono hnm, h.lights.mono hnm, h.groups.mono hnm,
    h.schedules.mono hnm, h.scenes.mono hnm, h.sensors.mono hnm⟩

instance : Named Connection where
  rename := rename
  Within := Within
  mono hnm h := h.mono hnm
  rename_rename r r' c := by
    have hcollection {ι : Type} (l : Collection ι) :
        (l.rename r).rename r' = l.rename (r.andThen r') := Named.rename_rename r r' l
    simp only [rename, Cache.rename_rename, hcollection]
    rfl

end Connection

theorem Collection.alike_below {ι : Type} {channel : Channel} (hchannel : channel.Within t n)
    (path : String) {parent : Cache} (hparent : parent.Within t n) (key : String) :
    ActsAlike t n (.named t (Collection ι)) (below channel path parent key)
      (below (channel.rename t.across) path (parent.rename t.across) key) := by
  refine (Cache.alike_newChild hparent key).bind fun m cache _ hm h => ?_
  obtain ⟨rfl, hcache⟩ := h
  exact .pure ⟨rfl, hchannel.mono hm, hcache, fun _ h => nomatch h⟩

namespace Bridge

/-- The bridge with other names. -/
def rename (r : Renaming) (b : Bridge) : Bridge :=
  { b with transport := r.transport b.transport, connection := b.connection.rename r }

/-- The bridge belongs to both runs. -/
structure Within (t : Twins) (n : Nat) (b : Bridge) : Prop where
  config : b.config.Fits t
  transport : t.Reaches n b.transport
  connection : b.connection.Within t n

instance : Named Bridge where
  rename := rename
  Within := Within
  mono hnm h := ⟨h.config, h.transport.mono hnm, h.connection.mono hnm⟩
  rename_rename r r' b := by
    have hconnection := Named.rename_rename r r' b.connection
    exact congrArg (fun connection : Connection =>
      { b with transport := r'.transport (r.transport b.transport), connection }) hconnection

theorem held_rename (r : Renaming) (b : Bridge) : (b.rename r).held = b.held.map r.name := by
  simp only [held, rename, Connection.rename, List.map_append, List.map_cons, Cache.node_rename,
    Collection.held_rename]

theorem Within.has_of_mem_held {b : Bridge} (h : b.Within t n) {a : NodeId} (ha : a ∈ b.held) :
    t.Has n a := by
  have hcollection {ι : Type} {l : Collection ι} (hl : l.Within t n) (ha : a ∈ l.held) :
      t.Has n a := by
    rcases List.mem_cons.mp ha with rfl | ha
    · exact hl.cache.node
    · obtain ⟨e, he, rfl⟩ := List.mem_map.mp ha
      exact (hl.entries e he).node
  have hc := h.connection
  simp only [held, List.mem_append, List.mem_cons] at ha
  rcases ha with ((((rfl | ha) | ha) | ha) | ha) | ha
  · exact hc.state.node
  · exact hcollection hc.lights ha
  · exact hcollection hc.groups ha
  · exact hcollection hc.schedules ha
  · exact hcollection hc.scenes ha
  · exact hcollection hc.sensors ha

/-! ## Connecting -/

theorem alike_connect {config : Config} (hconfig : config.Fits t) (hasked : config.Asks t)
    {transport : TransportId} (h : t.Reaches n transport) :
    ActsAlike t n (.named t Bridge) (connect config transport)
      (connect config (t.across.transport transport)) := by
  refine Alike.bind (Q := .named t Connection) ?_ fun m connection _ hm h' => ?_
  · refine (Channel.alike_connect _ _ _ hasked hconfig.minDelay h).bind
      fun m channel _ hm h => ?_
    obtain ⟨rfl, hchannel⟩ := h
    refine (Cache.alike_newRoot "" hchannel _).bind fun m' state _ hm' h => ?_
    obtain ⟨rfl, hstate⟩ := h
    -- each collection reads a part of the state; what was made before it stays as it is
    refine (Collection.alike_below (hchannel.mono hm') _ hstate _).bind
      fun m₁ lights _ hm₁ h => ?_
    obtain ⟨rfl, hlights⟩ := h
    have hchannel := hchannel.mono (Nat.le_trans hm' hm₁)
    have hstate := Named.mono hm₁ hstate
    refine (Collection.alike_below hchannel _ hstate _).bind fun m₂ groups _ hm₂ h => ?_
    obtain ⟨rfl, hgroups⟩ := h
    refine (Collection.alike_below (hchannel.mono hm₂) _ (Named.mono hm₂ hstate) _).bind
      fun m₃ schedules _ hm₃ h => ?_
    obtain ⟨rfl, hschedules⟩ := h
    have hm₂₃ := Nat.le_trans hm₂ hm₃
    refine (Collection.alike_below (hchannel.mono hm₂₃) _ (Named.mono hm₂₃ hstate) _).bind
      fun m₄ scenes _ hm₄ h => ?_
    obtain ⟨rfl, hscenes⟩ := h
    have hm₂₄ := Nat.le_trans hm₂₃ hm₄
    refine (Collection.alike_below (hchannel.mono hm₂₄) _ (Named.mono hm₂₄ hstate) _).bind
      fun m₅ sensors _ hm₅ h => ?_
    obtain ⟨rfl, hsensors⟩ := h
    have hm₃₅ := Nat.le_trans hm₃ (Nat.le_trans hm₄ hm₅)
    have hm₂₅ := Nat.le_trans hm₂ hm₃₅
    exact .pure ⟨rfl, hchannel.mono hm₂₅, Named.mono hm₂₅ hstate, Named.mono hm₂₅ hlights,
      Named.mono hm₃₅ hgroups, Named.mono (Nat.le_trans hm₄ hm₅) hschedules,
      Named.mono hm₅ hscenes, hsensors⟩
  · obtain ⟨rfl, hconnection⟩ := h'
    exact .pure ⟨rfl, hconfig, h.mono hm, hconnection⟩

theorem alike_setUsername (hasked : ∀ r, t.asked r) (username : String) :
    ActsOnAlike t n (.named t Bridge) .any (setUsername username) (setUsername username) := by
  refine Alike.current.bind fun m b _ _ h => ?_
  obtain ⟨rfl, hb⟩ := h
  refine (Alike.lift (alike_connect (hb.config.withUsername username)
    (fun _ _ _ _ _ => hasked _) hb.transport)).bind
    fun m' b' _ _ h => ?_
  obtain ⟨rfl, hb'⟩ := h
  exact .become (I := .named t _) ⟨rfl, hb'⟩

theorem alike_setTransport (hasked : ∀ r, t.asked r) {transport : TransportId}
    (h : t.Reaches n transport) :
    ActsOnAlike t n (.named t Bridge) .any (setTransport transport)
      (setTransport (t.across.transport transport)) := by
  refine Alike.current.bind fun m b _ hm h' => ?_
  obtain ⟨rfl, hb⟩ := h'
  refine (Alike.lift (alike_connect hb.config (fun _ _ _ _ _ => hasked _) (h.mono hm))).bind
    fun m' b' _ _ h => ?_
  obtain ⟨rfl, hb'⟩ := h
  exact .become (I := .named t _) ⟨rfl, hb'⟩

/-! ## The bridge itself -/

variable {b : Bridge}

theorem alike_refresh (hb : b.Within t n) : ActsAlike t n .any b.refresh (b.rename t.across).refresh :=
  Cache.alike_refresh hb.connection.state

theorem alike_aboutItself (hb : b.Within t n) (key : String) :
    ActsAlike t n (.same String) (b.aboutItself key) ((b.rename t.across).aboutItself key) := by
  refine (Cache.alike_newChild hb.connection.state "config").bind fun m cache _ _ h => ?_
  obtain ⟨rfl, hcache⟩ := h
  refine (Cache.alike_value hcache).bind fun m' about _ _ h => ?_
  cases h
  exact .pure rfl

/-! ## Collections -/

section Parts

variable {Q : Tie α}

/-- A collection of the bridge that is read and replaced whatever its names are. -/
theorem alike_onPart {ι : Type} {part : Bridge → Collection ι}
    {replace : Bridge → Collection ι → Bridge} {x x' : ActOn (Collection ι) α}
    (hx : ActsOnAlike t n (.named t (Collection ι)) Q x x')
    (hpart : ∀ r b, part (b.rename r) = (part b).rename r)
    (hreplace : ∀ r b l, replace (b.rename r) (l.rename r) = (replace b l).rename r)
    (hread : ∀ m (b : Bridge), b.Within t m → (part b).Within t m)
    (hwrite : ∀ m (b : Bridge) l, b.Within t m → l.Within t m → (replace b l).Within t m) :
    ActsOnAlike t n (.named t Bridge) Q (x.within part replace) (x'.within part replace) := by
  refine hx.within ?_ ?_
  · rintro m b _ ⟨rfl, hb⟩
    exact ⟨hpart t.across b, hread m b hb⟩
  · rintro m b _ l _ ⟨rfl, hb⟩ ⟨rfl, hl⟩
    exact ⟨hreplace t.across b l, hwrite m b l hb hl⟩

theorem alike_onLights {x x' : ActOn (Collection Int32) α}
    (hx : ActsOnAlike t n (.named t (Collection Int32)) Q x x') :
    ActsOnAlike t n (.named t Bridge) Q (onLights x) (onLights x') :=
  alike_onPart hx (fun _ _ => rfl) (fun _ _ _ => rfl) (fun _ _ hb => hb.connection.lights)
    fun _ _ _ hb hl => ⟨hb.config, hb.transport, { hb.connection with lights := hl }⟩

theorem alike_onGroups {x x' : ActOn (Collection Int32) α}
    (hx : ActsOnAlike t n (.named t (Collection Int32)) Q x x') :
    ActsOnAlike t n (.named t Bridge) Q (onGroups x) (onGroups x') :=
  alike_onPart hx (fun _ _ => rfl) (fun _ _ _ => rfl) (fun _ _ hb => hb.connection.groups)
    fun _ _ _ hb hl => ⟨hb.config, hb.transport, { hb.connection with groups := hl }⟩

theorem alike_onSchedules {x x' : ActOn (Collection Int32) α}
    (hx : ActsOnAlike t n (.named t (Collection Int32)) Q x x') :
    ActsOnAlike t n (.named t Bridge) Q (onSchedules x) (onSchedules x') :=
  alike_onPart hx (fun _ _ => rfl) (fun _ _ _ => rfl) (fun _ _ hb => hb.connection.schedules)
    fun _ _ _ hb hl => ⟨hb.config, hb.transport, { hb.connection with schedules := hl }⟩

theorem alike_onScenes {x x' : ActOn (Collection String) α}
    (hx : ActsOnAlike t n (.named t (Collection String)) Q x x') :
    ActsOnAlike t n (.named t Bridge) Q (onScenes x) (onScenes x') :=
  alike_onPart hx (fun _ _ => rfl) (fun _ _ _ => rfl) (fun _ _ hb => hb.connection.scenes)
    fun _ _ _ hb hl => ⟨hb.config, hb.transport, { hb.connection with scenes := hl }⟩

theorem alike_onSensors {x x' : ActOn (Collection Int32) α}
    (hx : ActsOnAlike t n (.named t (Collection Int32)) Q x x') :
    ActsOnAlike t n (.named t Bridge) Q (onSensors x) (onSensors x') :=
  alike_onPart hx (fun _ _ => rfl) (fun _ _ _ => rfl) (fun _ _ hb => hb.connection.sensors)
    fun _ _ _ hb hl => ⟨hb.config, hb.transport, { hb.connection with sensors := hl }⟩

end Parts

/-! ## Handles -/

theorem alike_handle {ι : Type} {find : ActOn Bridge (Resource ι)}
    (hfind : ActsOnAlike t n (.named t Bridge) (.named t (Resource ι)) find find) :
    ActsOnAlike t n (.named t Bridge) (.named t (Handle ι)) (handle find) (handle find) := by
  refine hfind.bind fun m r _ _ h => ?_
  obtain ⟨rfl, hr⟩ := h
  refine Alike.current.bind fun m' b _ hm' h => ?_
  obtain ⟨rfl, hb⟩ := h
  exact .pure ⟨rfl, hr.mono hm', hb.connection.channel⟩

theorem alike_wrapped {β γ : Type} [Named α] [Named β] {x : ActOn γ α} {I : Tie γ} {wrap : α → β}
    (hx : ActsOnAlike t n I (.named t α) x x)
    (hwrap : ∀ m a, Named.Within t m a →
      Named.rename t.across (wrap a) = wrap (Named.rename t.across a) ∧
        Named.Within t m (wrap a)) :
    ActsOnAlike t n I (.named t β) (do pure (wrap (← x))) (do pure (wrap (← x))) := by
  refine hx.bind fun m a _ _ h => ?_
  obtain ⟨rfl, ha⟩ := h
  exact .pure ⟨(hwrap m a ha).1.symm, (hwrap m a ha).2⟩

theorem alike_light (id : Int32) :
    ActsOnAlike t n (.named t Bridge) (.named t Light) (light id) (light id) :=
  alike_wrapped (alike_handle (alike_onLights (Collection.alike_get id))) fun _ _ h => ⟨rfl, h⟩

theorem alike_group (id : Int32) :
    ActsOnAlike t n (.named t Bridge) (.named t Group) (group id) (group id) :=
  alike_wrapped (alike_handle (alike_onGroups (Groups.alike_get id))) fun _ _ h => ⟨rfl, h⟩

theorem alike_schedule (id : Int32) :
    ActsOnAlike t n (.named t Bridge) (.named t Schedule) (schedule id) (schedule id) :=
  alike_wrapped (alike_handle (alike_onSchedules (Collection.alike_get id))) fun _ _ h => ⟨rfl, h⟩

theorem alike_scene (id : String) :
    ActsOnAlike t n (.named t Bridge) (.named t Scene) (scene id) (scene id) :=
  alike_wrapped (alike_handle (alike_onScenes (Collection.alike_get id))) fun _ _ h => ⟨rfl, h⟩

theorem alike_sensor (id : Int32) :
    ActsOnAlike t n (.named t Bridge) (.named t Sensor) (sensor id) (sensor id) :=
  alike_wrapped (alike_handle (alike_onSensors (Collection.alike_get id))) fun _ _ h => ⟨rfl, h⟩

end Bridge

/-! ## Pairing -/

theorem Pairing.judge_ne_timeOverflow {reply : Json} {e : Fault} (h : judge reply = .error e) :
    e ≠ .timeOverflow := by
  unfold judge at h
  split at h
  · split at h
    · cases h
    · cases h
      exact Fault.noConfusion
  · split at h
    · cases h
    · cases h
      exact Fault.noConfusion

theorem Pairing.alike_ask {config : Config} (hconfig : config.Fits t) {channel : Channel}
    (hchannel : channel.Within t n) (started : Instant) (attempts : Nat) :
    ActsAlike t n (.same Ending) (ask config channel started attempts)
      (ask config (channel.rename t.across) started attempts) := by
  -- on the number of questions that are left
  induction attempts generalizing n with
  | zero => exact .pure rfl
  | succ attempts ih =>
    refine (Channel.alike_request hchannel .post "" (body config)).bind fun m reply _ hm h => ?_
    cases h
    refine (Act.alike_ofExcept (Q := .same _) (fun _ _ => rfl) fun _ =>
      judge_ne_timeOverflow).bind fun m' verdict _ hm' h => ?_
    cases h
    cases verdict with
    | some username => exact .pure rfl
    | none =>
      refine Act.alike_now.bind fun m'' now _ hm'' h => ?_
      cases h
      cases hpassed : config.pairingTimeout.hasPassed (now - started) with
      | true =>
        simp only [if_true]
        exact .pure rfl
      | false =>
        -- the pause is begun, so there is a timeout that has not passed
        have htimeout : config.pairingTimeout ≠ .millis 0 := by
          intro h
          have hzero : (Duration.millis 0).hasPassed (now - started) = true :=
            decide_eq_true (Nat.zero_le (now - started))
          rw [h, hzero] at hpassed
          nomatch hpassed
        simp only [Bool.false_eq_true, if_false]
        refine (Act.alike_wait fun h => hconfig.pairing h htimeout).andThen (ih ?_)
        exact hchannel.mono (Nat.le_trans hm (Nat.le_trans hm' hm''))

theorem Bridge.alike_pair (hasked : ∀ r, t.asked r) :
    ActsOnAlike t n (.named t Bridge) (.same Pairing.Ending) pair pair := by
  refine Alike.current.bind fun m b _ _ h => ?_
  obtain ⟨rfl, hb⟩ := h
  -- how often is asked comes from the configuration and the replies, which both have
  refine (Alike.lift Act.alike_now).bind fun m₁ started _ hm₁ h => ?_
  cases h
  have hchannel := (hb.connection.channel.asUser hasked "").mono hm₁
  refine (Alike.lift (Act.alike_waiting hchannel.transport .post _)).bind
    fun m₂ prepared _ hm₂ h => ?_
  cases h
  refine (Alike.lift (Pairing.alike_ask hb.config (hchannel.mono hm₂) started _)).bind
    fun m₃ ending _ _ h => ?_
  cases h
  cases ending with
  | timeout | unfinished => exact .pure rfl
  | user username => exact (alike_setUsername hasked username).andThen (.pure rfl)

end LightBridge
