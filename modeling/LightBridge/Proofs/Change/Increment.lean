import LightBridge.Proofs.Cache.Holdings
import LightBridge.Proofs.Change.Overlap

/-!
# Increments and what is cached

An increment is no part of a state, so an acknowledged increment leaves the cached value of its
field as it was, and the next change is trimmed by that value: what is asked for in the field is
sent unless it is what is still cached.
-/

namespace LightBridge

namespace Setter

/-- The setter that changes what is in a field by an amount. -/
def increment? : String → Option (Int32 → Setter)
  | "bri" => some .brightnessBy
  | "sat" => some .saturationBy
  | "hue" => some .hueBy
  | "ct" => some .temperatureBy
  | _ => none

/-- The fields that can be changed by an amount. -/
def countedKeys : List String := ["bri", "sat", "hue", "ct"]

variable {key : String} {change : Int32 → Setter}

theorem mem_countedKeys (h : increment? key = some change) : key ∈ countedKeys := by
  unfold increment? at h
  split at h
  · decide
  · decide
  · decide
  · decide
  · cases h

/-- An increment is written beside the field that it changes. -/
theorem value?_fields_increment (h : increment? key = some change) (n : Int32) :
    ∃ v, Fields.value? (change n).fields (key ++ "_inc") = some v := by
  unfold increment? at h
  split at h <;> cases h
  · exact ⟨amount 254 n, if_pos (by decide)⟩
  · exact ⟨amount 254 n, if_pos (by decide)⟩
  · exact ⟨amount 65534 n, if_pos (by decide)⟩
  · exact ⟨amount 65534 n, if_pos (by decide)⟩

theorem exists_lastValue? {setters : List Setter} {s : Setter} (hs : s ∈ setters) {v : Json}
    (hv : Fields.value? s.fields key = some v) : ∃ last, lastValue? setters key = some last := by
  have hmem : v ∈ setters.filterMap fun s => Fields.value? s.fields key :=
    List.mem_filterMap.mpr ⟨s, hs, hv⟩
  exact Option.isSome_iff_exists.mp (List.getLast?_isSome.mpr (List.ne_nil_of_mem hmem))

end Setter

namespace Change

open Setter (Built countedKeys increment? lastValue? transitionKey)

variable {key : String} {change : Int32 → Setter} {state : Fields} {cache : Cache} {w : World}

theorem counted_spec (h : key ∈ countedKeys) :
    key ∈ plainKeys ∧ key ≠ "on" ∧ key ++ "_inc" ≠ "on" ∧ key ++ "_inc" ≠ transitionKey := by
  have hall : ∀ key ∈ countedKeys, key ∈ plainKeys ∧ key ≠ "on" ∧ key ++ "_inc" ≠ "on" ∧
      key ++ "_inc" ≠ transitionKey := by decide +kernel
  exact hall key h

/-- No state meets an increment. -/
theorem not_met_increment (h : key ∈ countedKeys) (known : Fields) (v : Json) :
    ¬ Met known (key ++ "_inc", v) := by
  have hall : ∀ key ∈ countedKeys, key ++ "_inc" ≠ "bri" ∧ key ++ "_inc" ≠ "effect" ∧
      impliedMode? (key ++ "_inc") = none := by decide +kernel
  obtain ⟨hbri, heffect, hmode⟩ := hall key h
  rintro (⟨hkey | hkey, -⟩ | ⟨hsome, -, -⟩)
  · exact hbri hkey
  · exact heffect hkey
  · rw [hmode] at hsome
    nomatch hsome

/-- A change with an increment among its settings sends that increment. -/
theorem exists_body_of_increment (hchange : increment? key = some change) {c : Change}
    (hnew : c.request = []) {setters : List Setter} {n : Int32} (hmem : change n ∈ setters) :
    ∃ body, (c.setAll setters).body? = some body ∧ Fields.has body (key ++ "_inc") = true := by
  have hcounted := Setter.mem_countedKeys hchange
  obtain ⟨-, -, hon, htransition⟩ := counted_spec hcounted
  obtain ⟨v, hv⟩ := Setter.value?_fields_increment hchange n
  obtain ⟨last, hlast⟩ := Setter.exists_lastValue? hmem hv
  obtain ⟨body, hbody, hvalue⟩ := exists_body_of_not_met hnew hon htransition hlast
    (not_met_increment hcounted c.baseline last)
  refine ⟨body, hbody, ?_⟩
  rw [Fields.has, hvalue]
  rfl

/-- What an acknowledged commit leaves in the cache, as it is read later. -/
theorem view_later {c : Change} {body : Fields} (hbody : c.body? = some body)
    (hcache : c.cache = some cache) (hview : cache.view w = .ok (.object state))
    (hok : outcome c.commit w = .ok true) {since : List Deed} (hsince : ∀ d ∈ since, d.Spares cache)
    (hlive : cache.Live ((after c.commit w).enactAll since)) :
    cache.view ((after c.commit w).enactAll since) = .ok (.object (patched body state)) := by
  have hafter := view_after_commit hcache hview
  rw [acknowledged?_of_ok hok, hbody] at hafter
  exact Cache.view_enactAll hafter hsince hlive

/-- **Increments.** A change with an increment of brightness, saturation, hue or colour temperature
is committed while its cache reads as a state object, and the answer is that all was acknowledged.
The increment was sent, and when the cache is read later, without a fetch in between, the field has
the value that was sent for it besides the increment, or else the value that it had. The next
change that sets the field against what is then read sends the field exactly if it is not met by
that, in value and colour mode. -/
theorem sent_after_increment_iff (hchange : increment? key = some change) {first : List Setter}
    {n : Int32} (hmem : change n ∈ first) (channel channel' : Channel) (path path' : String)
    (baseline : Json) (hread : outcome cache.peek w = .ok (.object state))
    (hok : outcome ((start channel path baseline (some cache)).setAll first).commit w = .ok true)
    {since : List Deed} (hsince : ∀ d ∈ since, d.Spares cache)
    (hlive : cache.Live ((after ((start channel path baseline (some cache)).setAll first).commit
      w).enactAll since)) :
    let c := (start channel path baseline (some cache)).setAll first
    let u := (after c.commit w).enactAll since
    ∃ body held, c.Writes body w ∧ Fields.has body (key ++ "_inc") = true ∧
      outcome cache.peek u = .ok (.object held) ∧
      Fields.value? held key = (Fields.value? body key).or (Fields.value? state key) ∧
      Fields.value? held "colormode" = modeAfter state body ∧
      ∀ second v u', lastValue? second key = some v →
        let next := (start channel' path' (.object held) (some cache)).setAll second
        (¬ Met held (key, v) →
          ∃ body', next.Writes body' u' ∧ Fields.value? body' key = some v) ∧
        (Met held (key, v) →
          ∀ body', next.Writes body' u' → Fields.value? body' key = none) := by
  intro c u
  rw [Cache.outcome_peek] at hread
  obtain ⟨hplain, hon, -, -⟩ := counted_spec (Setter.mem_countedKeys hchange)
  obtain ⟨hmode, hlasting, htransition⟩ := plain_of_mem hplain
  have hnew : (start channel path baseline (some cache)).request = [] := rfl
  obtain ⟨body, hbody, hinc⟩ := exists_body_of_increment hchange hnew hmem
  have hbuilt : Built body := built_body (built_setAll first hnew) hbody
  have hview := view_later hbody (cache_setAll _ first) hread hok hsince hlive
  have hnext : (start channel' path' (.object (patched body state)) (some cache)).request = [] :=
    rfl
  refine ⟨body, patched body state, writes_of_body hbody w, hinc, ?_,
    value?_patched_of_lasting hbuilt.distinct state hmode hlasting,
    value?_patched_colormode hbuilt.distinct state (value?_colormode_of_built hbuilt),
    fun second v u' hlast => ⟨fun hnot => ?_, fun hmet body' hwrites => ?_⟩⟩
  · rw [Cache.outcome_peek]
    exact hview
  · obtain ⟨body', hbody', hvalue⟩ := exists_body_of_not_met hnext hon htransition hlast hnot
    exact ⟨body', writes_of_body hbody' u', hvalue⟩
  · exact value?_body_of_met hnext hon htransition hlast hmet hwrites.wanted

namespace Lamp

/-- The lamp, with a bridge that acknowledges to raise its brightness by 50. -/
def raisable : World :=
  { world with
    transports := Table.empty.set 0 (Script.ofLines 0 [.always .put "/api/user/lights/1/state"
      "[\x7b\"success\":\x7b\"/lights/1/state/bri_inc\":50\x7d\x7d]"]) }

end Lamp

/-- Another brightness than the one cached is sent after an increment. -/
theorem brightness_sent_after_increment :
    let first := (start Lamp.channel "/lights/1/state" (.object Lamp.initial)
      (some Lamp.cache)).setAll [.brightnessBy 50]
    let u := (after first.commit Lamp.raisable).enactAll [.event (.pass 40)]
    ∃ held, outcome Lamp.cache.peek u = .ok (.object held) ∧
      let next := (start Lamp.channel "/lights/1/state" (.object held)
        (some Lamp.cache)).setAll [.brightness 200]
      ∃ body, next.Writes body u ∧ Fields.value? body "bri" = some (Setter.level 200) := by
  intro first u
  have hsince : ∀ d ∈ [Deed.event (.pass 40)], d.Spares Lamp.cache := by
    intro d hd
    rw [List.mem_singleton.mp hd]
    trivial
  obtain ⟨hok, hlive⟩ : (outcome first.commit Lamp.raisable).toOption = some true ∧
      Lamp.cache.Live u := by decide +kernel
  have hchange : increment? "bri" = some .brightnessBy := rfl
  have hmem : Setter.brightnessBy 50 ∈ [Setter.brightnessBy 50] := by decide
  obtain ⟨body, held, hwrites, -, hpeek, hvalue, -, hnext⟩ :=
    sent_after_increment_iff hchange hmem Lamp.channel Lamp.channel "/lights/1/state"
      "/lights/1/state" (.object Lamp.initial) rfl (eq_ok_of_toOption hok) hsince hlive
  refine ⟨held, hpeek, (hnext [.brightness 200] (Setter.level 200) u rfl).1 ?_⟩
  -- the increment alone was sent, so the brightness is still the one from before
  have hbody : first.body? = some [("bri_inc", Setter.amount 254 50)] := rfl
  cases hbody.symm.trans hwrites.wanted
  have hdiffers : (Setter.level 100).agrees (Setter.level 200) = false := by decide +kernel
  rintro (⟨-, current, hcurrent, hagrees⟩ | ⟨hmode, -, -⟩)
  · cases hvalue.symm.trans hcurrent
    cases hdiffers.symm.trans hagrees
  · nomatch hmode

/-- The brightness that was there before an increment is not sent afterwards, although the light has
another one by then. -/
theorem brightness_withheld_after_increment :
    let turns := [Lamp.begin "first", .set "first" (.brightnessBy 50), .commit "first",
      Lamp.begin "second", .set "second" (.brightness 100)]
    let start := Desk.mk .empty Lamp.raisable
    let d := start.turns turns
    let final := d.turn (.commit "second")
    lastValue? (settings "second" turns) "bri" = some (Setter.level 100) ∧
      start.SharesAll 0 ["1", "state"] (turns ++ [.commit "second"]) ∧
      (start.written turns).map (·.map (·.1)) = [["bri_inc"]] ∧
      d.world.sent.length = 1 ∧ final.world.sent.length = 1 ∧
      (d.changes.get? "second").map (fun c => (outcome c.commit d.world).toOption) =
        some (some true) := by
  intro turns start d final
  refine ⟨rfl, ?_⟩
  decide +kernel

end Change

end LightBridge
