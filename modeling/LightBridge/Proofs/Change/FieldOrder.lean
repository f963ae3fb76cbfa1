import LightBridge.Proofs.Change.Difference

/-!
# The order of the fields

A request lists its fields in the order in which they were set, and filtering it moves none of them.
Only a field that is taken out by its name leaves a gap, which the last field fills: the transition
time when it is set back to the one that a bridge uses anyway, and the power setting when trimming
drops it. With two or more fields behind the gap, the last of them gets in front of the others.
-/

namespace LightBridge

open Fields (Distinct)

namespace Setter

variable {request : Fields} {setters before between later : List Setter} {tenths : UInt16}

/-- The fields that several setters write, in order. -/
def written (setters : List Setter) : Fields := setters.flatMap fields

/-- Between a transition time and the default one that takes it back, at most one field is set. -/
def TransitionResetSoon (setters : List Setter) : Prop :=
  ∀ before tenths between later,
    setters = before ++ transition tenths :: (between ++ transition defaultTransition :: later) →
    tenths ≠ defaultTransition → transition defaultTransition ∉ between →
    (written between).length ≤ 1

@[simp] theorem written_cons (s : Setter) (rest : List Setter) :
    written (s :: rest) = s.fields ++ written rest := List.flatMap_cons

@[simp] theorem written_append (setters others : List Setter) :
    written (setters ++ others) = written setters ++ written others := List.flatMap_append

theorem applyAll_append (setters others : List Setter) (request : Fields) :
    applyAll (setters ++ others) request = applyAll others (applyAll setters request) :=
  List.foldl_append

@[simp] theorem fields_default : (transition defaultTransition).fields = [] := rfl

theorem fields_transition (h : tenths ≠ defaultTransition) :
    (transition tenths).fields = [(transitionKey, word tenths)] := if_neg h

theorem apply_default (request : Fields) :
    (transition defaultTransition).apply request = Fields.remove request transitionKey := rfl

/-- No other setter writes a transition time. -/
theorem eq_transition_of_written {s : Setter} {value : Json}
    (h : (transitionKey, value) ∈ s.fields) :
    ∃ tenths, tenths ≠ defaultTransition ∧ s = transition tenths := by
  cases s with
  | transition tenths =>
    refine ⟨tenths, ?_, rfl⟩
    rintro rfl
    cases h
  | _ => simp [fields, transitionKey] at h

/-! ## Fields that are set one after the other -/

/-- A setter puts new fields behind the others. -/
theorem apply_of_distinct {s : Setter} (h : Distinct (request ++ s.fields))
    (hreset : s = transition defaultTransition → transitionKey ∉ Fields.keys request) :
    s.apply request = request ++ s.fields := by
  by_cases hs : s = transition defaultTransition
  · rw [hs, apply_default, Fields.remove_of_not_mem (hreset hs), fields_default, List.append_nil]
  · have hput : s.apply request = Fields.putAll request s.fields := by
      cases s with
      | transition tenths =>
        have htenths : tenths ≠ defaultTransition := fun h => hs (h ▸ rfl)
        rw [fields_transition htenths]
        exact if_neg htenths
      | _ => rfl
    rw [hput, Fields.putAll_of_distinct h]

/-- Without a transition time that is taken back, all fields stand as they were set. -/
theorem applyAll_of_distinct (h : Distinct (request ++ written setters))
    (hreset : transition defaultTransition ∈ setters →
      transitionKey ∉ Fields.keys (request ++ written setters)) :
    applyAll setters request = request ++ written setters := by
  induction setters generalizing request with
  | nil => exact (List.append_nil request).symm
  | cons s rest ih =>
    rw [written_cons, ← List.append_assoc] at h hreset ⊢
    have hfirst : s.apply request = request ++ s.fields := by
      refine apply_of_distinct (h.of_sublist (List.sublist_append_left _ _)) fun hs hkey => ?_
      refine hreset (hs ▸ List.mem_cons_self) ?_
      rw [Fields.keys, List.map_append, List.map_append, List.append_assoc]
      exact List.mem_append_left _ hkey
    show applyAll rest (s.apply request) = _
    rw [hfirst]
    exact ih h fun hrest => hreset (List.mem_cons_of_mem s hrest)

/-- A transition time that is not taken back stands where it was set. -/
theorem applyAll_of_transition (htenths : tenths ≠ defaultTransition)
    (hkept : transition defaultTransition ∉ between)
    (h : Distinct (written before ++ (transitionKey, word tenths) :: written between)) :
    applyAll (before ++ transition tenths :: between) [] =
      written before ++ (transitionKey, word tenths) :: written between := by
  obtain ⟨hnew, -⟩ := Fields.not_mem_keys_of_distinct h
  have hfirst : applyAll before [] = written before :=
    applyAll_of_distinct (h.of_sublist (List.sublist_append_left _ _)) fun _ => hnew
  rw [List.append_cons] at h
  have htime : (transition tenths).apply (written before) =
      written before ++ [(transitionKey, word tenths)] := by
    rw [← fields_transition htenths] at h ⊢
    refine apply_of_distinct (h.of_sublist (List.sublist_append_left _ _)) fun hdefault => ?_
    cases hdefault
    exact absurd rfl htenths
  rw [applyAll_append, hfirst, List.append_cons]
  show applyAll between ((transition tenths).apply (written before)) = _
  rw [htime]
  exact applyAll_of_distinct h fun hreset => absurd hreset hkept

/-- When a transition time is taken back, the last field set since then takes its place. -/
theorem applyAll_of_reset (htenths : tenths ≠ defaultTransition)
    (hkept : transition defaultTransition ∉ between)
    (h : Distinct (written before ++ (transitionKey, word tenths) ::
      (written between ++ written later))) :
    applyAll (before ++ transition tenths ::
        (between ++ transition defaultTransition :: later)) [] =
      Fields.remove (written before ++ (transitionKey, word tenths) :: written between)
        transitionKey ++ written later := by
  obtain ⟨-, hrest⟩ := Fields.not_mem_keys_of_distinct h
  have hnone : transitionKey ∉ Fields.keys (written later) := by
    rw [Fields.keys, List.map_append, List.mem_append, not_or] at hrest
    exact hrest.2
  rw [← List.cons_append, ← List.append_assoc] at h ⊢
  have hset : Distinct (written before ++ (transitionKey, word tenths) :: written between) :=
    h.of_sublist (List.sublist_append_left _ _)
  rw [applyAll_append, applyAll_of_transition htenths hkept hset]
  show applyAll later ((transition defaultTransition).apply _) = _
  rw [apply_default]
  refine applyAll_of_distinct (h.remove_append transitionKey) fun _ hkey => ?_
  rw [Fields.keys, List.map_append, List.mem_append] at hkey
  exact hkey.elim (Fields.not_mem_keys_remove hset transitionKey) hnone

/-- **Before trimming.** With every field set once, a request has its fields in the order in which
they were set exactly if a transition time that is taken back is so with at most one field behind
it. -/
theorem applyAll_sublist_iff (h : Distinct (written setters)) :
    (applyAll setters []).Sublist (written setters) ↔ TransitionResetSoon setters := by
  constructor
  · rintro hsub before tenths between later rfl htenths hkept
    simp only [written_append, written_cons, fields_transition htenths, fields_default,
      List.singleton_append, List.nil_append] at h hsub
    rw [applyAll_of_reset htenths hkept h] at hsub
    have hset : (written before ++ (transitionKey, word tenths) :: written between).Sublist
        (written before ++ (transitionKey, word tenths) :: (written between ++ written later)) :=
      ((List.sublist_append_left _ _).cons_cons _).append_left _
    exact (Fields.remove_sublist_iff h hset).mp ((List.sublist_append_left _ _).trans hsub)
  · intro hsoon
    by_cases htime : transitionKey ∈ Fields.keys (written setters)
    · obtain ⟨⟨key, value⟩, hfield, rfl⟩ := List.mem_map.mp htime
      obtain ⟨s, hs, hwritten⟩ := List.mem_flatMap.mp hfield
      obtain ⟨tenths, htenths, rfl⟩ := eq_transition_of_written hwritten
      obtain ⟨before, rest, rfl⟩ := List.append_of_mem hs
      by_cases hreset : transition defaultTransition ∈ rest
      · -- the first default after the transition time takes it back
        obtain ⟨between, later, rfl, hkept⟩ := List.eq_append_cons_of_mem hreset
        have hone := hsoon before tenths between later rfl htenths hkept
        simp only [written_append, written_cons, fields_transition htenths, fields_default,
          List.singleton_append, List.nil_append] at h ⊢
        rw [applyAll_of_reset htenths hkept h]
        rw [← List.cons_append, ← List.append_assoc] at h ⊢
        have hset := h.of_sublist (List.sublist_append_left _ _)
        exact ((Fields.remove_sublist_iff hset (.refl _)).mpr hone).append_right _
      · simp only [written_append, written_cons, fields_transition htenths,
          List.singleton_append] at h ⊢
        rw [applyAll_of_transition htenths hreset h]
    · rw [applyAll_of_distinct h fun _ => htime]
      exact List.Sublist.refl _

end Setter

namespace Change

variable {baseline request : Fields}

/-- A power setting that trimming drops has at most one field behind it that is left. -/
def PowerDroppedLate (baseline request : Fields) : Prop :=
  ∀ before power later, unmet baseline request = before ++ ("on", power) :: later →
    PowerMet baseline request power → later.length ≤ 1

theorem trimFields_of_no_power (h : Setter.Built request)
    (hnone : ∀ power, ("on", power) ∈ request → ¬ PowerMet baseline request power) :
    trimFields baseline request = unmet baseline request := by
  cases hon : Fields.value? request "on" with
  | none =>
    have hpower : powerUnchanged baseline (unmet baseline request) = false := by
      rw [powerUnchanged, value?_unmet_on baseline h.distinct, hon]
    rw [trimFields_eq, hpower, Bool.false_and, if_neg Bool.false_ne_true]
  | some power =>
    obtain ⟨b, rfl⟩ := h.exists_bool hon
    have hnot := hnone _ ((Fields.value?_eq_some_iff h.distinct).mp hon)
    exact trimFields_of_not_satisfied baseline h.distinct hon (mt satisfied_iff.mp hnot)

/-- **Trimming.** Fields that stand in order are left in order exactly if a power setting that is
dropped has at most one of them behind it. -/
theorem trimFields_sublist_iff (h : Setter.Built request) {ordered : Fields}
    (hordered : Distinct ordered) (hsub : request.Sublist ordered) :
    (trimFields baseline request).Sublist ordered ↔ PowerDroppedLate baseline request := by
  have hunmet : (unmet baseline request).Sublist ordered := List.filter_sublist.trans hsub
  by_cases hmet : ∃ power, ("on", power) ∈ request ∧ PowerMet baseline request power
  · obtain ⟨power, hpower, hmet⟩ := hmet
    have hon : Fields.value? request "on" = some power :=
      (Fields.value?_eq_some_iff h.distinct).mpr hpower
    obtain ⟨b, rfl⟩ := h.exists_bool hon
    rw [trimFields_of_satisfied baseline h.distinct hon (satisfied_iff.mpr hmet)]
    constructor
    · intro hleft before power later hsplit _
      rw [hsplit] at hleft hunmet
      exact (Fields.remove_sublist_iff hordered hunmet).mp hleft
    · intro hlate
      have hmem : ("on", Json.bool b) ∈ unmet baseline request :=
        mem_unmet.mpr ⟨hpower, not_met_on _⟩
      obtain ⟨before, later, hsplit⟩ := List.append_of_mem hmem
      have hone := hlate before _ later hsplit hmet
      rw [hsplit] at hunmet ⊢
      exact (Fields.remove_sublist_iff hordered hunmet).mpr hone
  · -- nothing is taken out by its name
    have hnone : ∀ power, ("on", power) ∈ request → ¬ PowerMet baseline request power :=
      fun power hpower hdropped => hmet ⟨power, hpower, hdropped⟩
    rw [trimFields_of_no_power h hnone]
    refine iff_of_true hunmet fun before power later hsplit hdropped => ?_
    have hmem : ("on", power) ∈ unmet baseline request := by simp [hsplit]
    exact absurd hdropped (hnone power (mem_unmet.mp hmem).1)

/-- A body begins with what trimming leaves, in its order, and has at most a power setting more. -/
theorem exists_power_of_body? {c : Change} {body : Fields} (hbody : c.body? = some body) :
    ∃ power, body = c.trim.request ++ power ∧ (power = [] ∨ ∃ b, power = [("on", .bool b)]) := by
  have hpowered := powered_withPower c.baseline (trimFields c.baseline c.request)
  rw [← eq_withPower_of_body? hbody] at hpowered
  cases hpowered with
  | given | silent => exact ⟨[], (List.append_nil _).symm, .inl rfl⟩
  | off => exact ⟨_, rfl, .inr ⟨false, rfl⟩⟩
  | on => exact ⟨_, rfl, .inr ⟨true, rfl⟩⟩

/-- **Field order.** Of settings that set every field once, apart from default transition times, the
request has the fields in the order in which they were set exactly if a transition time is taken
back, if at all, with at most one field set since. Trimmed, it still has them in that order exactly
if a power setting that is dropped had at most one of the fields left behind it. Whatever a commit
sends begins with the trimmed fields as they stand, and has one power setting more at most. -/
theorem fields_in_order_iff (channel : Channel) (path : String) (baseline : Json)
    (cache : Option Cache) {setters : List Setter} (honce : Distinct (Setter.written setters)) :
    let c := (start channel path baseline cache).setAll setters
    (c.request.Sublist (Setter.written setters) ↔ Setter.TransitionResetSoon setters) ∧
      (c.request.Sublist (Setter.written setters) →
        (c.trim.request.Sublist (Setter.written setters) ↔ PowerDroppedLate c.baseline c.request)) ∧
      ∀ w, ∃ sent, (after c.commit w).sent = w.sent ++ sent ∧ ∀ s ∈ sent, ∃ power,
        s.request = channel.compose .put path (.object (c.trim.request ++ power)) ∧
          (power = [] ∨ ∃ b, power = [("on", .bool b)]) := by
  intro c
  have hrequest : c.request = Setter.applyAll setters [] := request_setAll _ setters
  refine ⟨?_, trimFields_sublist_iff (built_setAll setters rfl) honce, fun w => ?_⟩
  · rw [hrequest]
    exact Setter.applyAll_sublist_iff honce
  · obtain ⟨sent, hsent, hall⟩ := sent_by_commit c w
    refine ⟨sent, hsent, fun s hs => ?_⟩
    obtain ⟨body, hbody, hcompose⟩ := hall s hs
    obtain ⟨power, rfl, hpower⟩ := exists_power_of_body? hbody
    rw [channel_setAll, path_setAll] at hcompose
    exact ⟨power, hcompose, hpower⟩

/-- A lamp gets a transition time that is taken back at once, and a power and a brightness that it
has already; the alert that is left stands in order. -/
theorem alert_left_in_order :
    let setters := [Setter.on true, .transition 7, .brightness 50, .transition 4, .flash]
    let channel : Channel := ⟨"192.168.2.116", 80, "user", .millis 100, 0, 0⟩
    let state := Json.object [("on", .bool true), ("bri", Setter.level 50)]
    let c := (start channel "/lights/1/state" state none).setAll setters
    Distinct (Setter.written setters) ∧ Setter.TransitionResetSoon setters ∧
      PowerDroppedLate c.baseline c.request ∧
      c.request = [("on", .bool true), ("bri", Setter.level 50), ("alert", .string "select")] ∧
      c.trim.request = [("alert", .string "select")] := by
  intro setters channel state c
  have honce : Distinct (Setter.written setters) := by
    show (Fields.keys (Setter.written setters)).Nodup
    decide
  obtain ⟨hbefore, hafter, -⟩ := fields_in_order_iff channel "/lights/1/state" state none honce
  have hrequest : c.request.Sublist (Setter.written setters) :=
    ((List.Sublist.refl _).cons _).cons_cons _
  have htrimmed : c.trim.request.Sublist (Setter.written setters) :=
    (((List.Sublist.refl _).cons _).cons _).cons _
  exact ⟨honce, hbefore.mp hrequest, (hafter hrequest).mp htrimmed, rfl, rfl⟩

/-- The power that a lamp has already is dropped from the front, and the alert gets before the
brightness. -/
theorem alert_sent_before_brightness :
    let setters := [Setter.on true, .brightness 50, .flash]
    let channel : Channel := ⟨"192.168.2.116", 80, "user", .millis 100, 0, 0⟩
    let state := Json.object [("on", .bool true)]
    let c := (start channel "/lights/1/state" state none).setAll setters
    Distinct (Setter.written setters) ∧ c.request = Setter.written setters ∧
      ¬ c.trim.request.Sublist (Setter.written setters) ∧
      (after c.commit World.start).sent.map (·.request.body) =
        ["\x7b\"alert\":\"select\",\"bri\":50\x7d"] := by
  intro setters channel state c
  have honce : Distinct (Setter.written setters) := by
    show (Fields.keys (Setter.written setters)).Nodup
    decide
  have hset : List.Sublist [("bri", Setter.level 50), ("alert", Json.string "select")]
      (Setter.written setters) := (List.Sublist.refl _).cons _
  have htrimmed : c.trim.request = [("alert", .string "select"), ("bri", Setter.level 50)] := rfl
  refine ⟨honce, rfl, ?_, by decide +kernel⟩
  rw [htrimmed]
  exact Fields.not_sublist_swap honce hset

end Change

end LightBridge
