import LightBridge.Proofs.Change.Body
import LightBridge.Proofs.Change.Turns

/-!
# Changes of one state object that overlap

Each change trims its request by the state that it began with, while the cached state moves on with
every commit. What a change asks for is therefore in the cached state after its commit unless it is
left out and another commit has overwritten it meanwhile.
-/

namespace LightBridge.Change

open Setter (Built lastValue?)

variable {root : NodeId} {keys : List String} {state : Fields}

/-! ## What was asked for -/

variable {known request : Fields} {key : String} {v : Json}

/-- The fields that stay in a state and hold a truth value or a whole number. -/
def plainKeys : List String := ["on", "bri", "hue", "sat", "ct"]

theorem plain_of_mem (h : key ∈ plainKeys) :
    key ≠ "colormode" ∧ Lasting key ∧ key ≠ Setter.transitionKey := by
  have hplain : ∀ key ∈ plainKeys, key ≠ "colormode" ∧ isDurable (key, .null) = true ∧
      key ≠ Setter.transitionKey := by decide +kernel
  obtain ⟨hmode, hdurable, htransition⟩ := hplain key h
  exact ⟨hmode, (isDurable_iff .null).mp hdurable, htransition⟩

/-- A field is left out, and the last of several writes to have the field set it to a value that
does not agree. -/
def Superseded (known request : Fields) (bodies : List Fields) (field : String × Json) : Prop :=
  LeftOut known request field ∧
    ∃ other, lastWritten? bodies field.1 = some other ∧ other.agrees field.2 = false

/-- After its own write, a state has what a change asks for exactly when that was not superseded by
the writes since the change began. -/
theorem agrees_settled_iff {c : Change} {bodies : List Fields} (hbuilt : Built c.request)
    (hbodies : ∀ body ∈ bodies, Built body) (hmode : key ≠ "colormode") (hlasting : Lasting key)
    (htransition : key ≠ Setter.transitionKey) (hasked : Fields.value? c.request key = some v)
    (hself : v.agrees v = true)
    (hnot : key = "on" → ∀ b, v = .bool b → ¬ Overruled c.baseline c.request b) :
    Agrees (settled c.body?.toList (settled bodies c.baseline)) (key, v) ↔
      ¬ Superseded c.baseline c.request bodies (key, v) := by
  have hbefore := value?_settled hbodies c.baseline hmode hlasting
  have hafter : Fields.value? (settled c.body?.toList (settled bodies c.baseline)) key =
      (c.body?.bind (Fields.value? · key)).or (Fields.value? (settled bodies c.baseline) key) := by
    cases hbody : c.body? with
    | none => rfl
    | some body =>
      exact value?_patched_of_lasting (built_body hbuilt hbody).distinct _ hmode hlasting
  by_cases hout : LeftOut c.baseline c.request (key, v)
  · -- nothing is written for the field, so what is there is the last write, or the known state
    have hnone : c.body?.bind (Fields.value? · key) = none := by
      cases hbody : c.body? with
      | none => rfl
      | some body => exact value?_body_of_leftOut hbuilt hbody hasked hout hnot
    rw [hnone, Option.none_or, hbefore] at hafter
    cases hlast : lastWritten? bodies key with
    | none =>
      rw [hlast, Option.none_or] at hafter
      obtain ⟨current, hcurrent, hagrees⟩ := agrees_of_leftOut hout hself
      refine iff_of_true ⟨current, hafter.trans hcurrent, hagrees⟩ ?_
      rintro ⟨-, other, hother, -⟩
      rw [hlast] at hother
      nomatch hother
    | some other =>
      rw [hlast, Option.some_or] at hafter
      simp [Agrees, Superseded, hafter, hlast, hout]
  · have hsent : c.body?.bind (Fields.value? · key) = some v := by
      cases hbody : c.body? with
      | none => exact absurd (leftOut_of_idle hbuilt hbody htransition hasked) hout
      | some body => exact value?_body_of_sent hbuilt hbody hasked hout
    rw [hsent, Option.some_or] at hafter
    exact iff_of_true ⟨v, hafter, hself⟩ fun hsuperseded => hout hsuperseded.1

/-- The same for a change as its settings leave it. -/
theorem agrees_settled_setAll_iff {bodies : List Fields} (hbodies : ∀ body ∈ bodies, Built body)
    (channel : Channel) (path : String) (cache : Cache) (setters : List Setter)
    (hkey : key ∈ plainKeys) (hlast : lastValue? setters key = some v) :
    let c := (start channel path (.object known) (some cache)).setAll setters
    (key = "on" → ∀ b, v = .bool b → ¬ Overruled known c.request b) →
    (Agrees (settled c.body?.toList (settled bodies known)) (key, v) ↔
      ¬ Superseded known c.request bodies (key, v)) := by
  intro c hnot
  have hbaseline : c.baseline = known := baseline_setAll _ setters
  have hasked : Fields.value? c.request key = some v :=
    (value?_setAll setters rfl (plain_of_mem hkey).2.2).trans hlast
  have hself := agrees_self_of_lastValue? hlast
  obtain ⟨hmode, hlasting, htransition⟩ := plain_of_mem hkey
  rw [← hbaseline] at hnot ⊢
  exact agrees_settled_iff (built_setAll setters rfl) hbodies hmode hlasting htransition hasked
    hself hnot

namespace Desk

theorem opened {d : Desk} (h : d.Serves root keys state) {name path : String} {channel : Channel}
    {cache : Cache} (hshares : d.Shares root keys (.begin name channel path cache)) :
    (d.turn (.begin name channel path cache)).Serves root keys state ∧
      outcome cache.peek (d.turn (.begin name channel path cache)).world = .ok (.object state) ∧
      (d.turn (.begin name channel path cache)).changes.get? name =
        some (start channel path (.object state) (some cache)) := by
  have hserves := (serves_turn h hshares).1
  have hview := view_of_serves h hshares.1 hshares.2.1 hshares.2.2.1
  rw [turn_begin h hshares] at hserves ⊢
  exact ⟨hserves, by rw [Cache.outcome_peek, hview], Table.get?_set_self _ _ _⟩

/-- After an acknowledged commit the cache of the change reads as the body leaves the state. -/
theorem peek_after_commit {d : Desk} (h : d.Serves root keys state) {name : String} {c : Change}
    (hc : d.changes.get? name = some c) {cache : Cache} (hcache : c.cache = some cache)
    (hroot : cache.rootNode = root) (hkeys : cache.keys = keys)
    (hshares : d.Shares root keys (.commit name)) (hok : outcome c.commit d.world = .ok true) :
    outcome cache.peek (d.turn (.commit name)).world =
      .ok (.object (settled c.body?.toList state)) := by
  have hlive : cache.Live d.world := hshares cache (by rw [hc, Option.bind_some, hcache]; rfl)
  have hview := view_after_commit hcache (view_of_serves h hroot hkeys hlive)
  rw [acknowledged?_of_ok hok] at hview
  rw [Cache.outcome_peek, turn, hc]
  exact hview

end Desk

/-- **Overlap.** Changes of one cached state object begin, are added to and are committed in any
order, without a fetch in between. When the commit of one of them answers that all was acknowledged,
each field that it set last to a value, of those that stay and hold a truth value or a whole number,
agrees with that value in the cached state then, exactly if that was not superseded by the commits
since the change began. A power setting that is overruled is no such field. -/
theorem cached_unless_superseded {root : NodeId} {keys : List String} {w : World} {state : Fields}
    (hcached : ∃ s, w.snapshots.get? root = some s ∧ s.value.at? keys = some (.object state))
    {before later : List Turn} {name path : String} {channel : Channel} {cache : Cache}
    (hlater : ∀ t ∈ later, t.bounds name = false)
    (hshares : (Desk.mk .empty w).SharesAll root keys
      (before ++ .begin name channel path cache :: later ++ [.commit name])) :
    let opened := ((Desk.mk .empty w).turns before).turn (.begin name channel path cache)
    let d := opened.turns later
    ∃ known, outcome cache.peek opened.world = .ok (.object known) ∧
      let c := (start channel path (.object known) (some cache)).setAll (settings name later)
      d.changes.get? name = some c ∧
      (outcome c.commit d.world = .ok true →
        ∃ held, outcome cache.peek (d.turn (.commit name)).world = .ok (.object held) ∧
          ∀ key ∈ plainKeys, ∀ v, lastValue? (settings name later) key = some v →
            (key = "on" → ∀ b, v = .bool b → ¬ Overruled known c.request b) →
            (Agrees held (key, v) ↔
              ¬ Superseded known c.request (opened.written later) (key, v))) := by
  intro opened d
  rw [List.append_assoc, Desk.sharesAll_append, List.cons_append, Desk.SharesAll,
    Desk.sharesAll_append] at hshares
  obtain ⟨hbefore, hbegin, hlaterShares, hcommit, -⟩ := hshares
  have hstart : (Desk.mk .empty w).Serves root keys state := ⟨hcached, Table.All.empty⟩
  have hserves := (Desk.serves_turns hstart hbefore).1
  -- whatever was written before the change began, it begins with what is there
  generalize settled ((Desk.mk .empty w).written before) state = known at hserves
  obtain ⟨hopened, hpeek, hnew⟩ := Desk.opened hserves hbegin
  have hchange := Desk.change_after_turns hnew hlater
  obtain ⟨hmoved, hbodies⟩ := Desk.serves_turns hopened hlaterShares
  refine ⟨known, hpeek, hchange, fun hok => ?_⟩
  have hheld := Desk.peek_after_commit hmoved hchange (cache_setAll _ _) hbegin.1 hbegin.2.1
    hcommit hok
  refine ⟨_, hheld, fun key hkey v hlast hnot => ?_⟩
  exact agrees_settled_setAll_iff hbodies channel path cache _ hkey hlast hnot

/-! ## Two changes of a lamp -/

namespace Lamp

def channel : Channel := ⟨"192.168.2.116", 80, "user", .millis 0, 0, 0⟩

/-- The state of the lamp, as a field of a field of what a root holds. -/
def cache : Cache := .child (.child (.root 0 "lights" channel .never) 1 "1") 2 "state"

def initial : Fields := [("on", .bool true), ("bri", Setter.level 100)]

/-- The lamp is on with brightness 100, and its bridge acknowledges a brightness of 200. -/
def world : World :=
  { World.start with
    transports := Table.empty.set 0 (Script.ofLines 0 [.always .put "/api/user/lights/1/state"
      "[\x7b\"success\":\x7b\"/lights/1/state/bri\":200\x7d\x7d]"])
    snapshots := Table.empty.set 0 ⟨.object [("1", .object [("state", .object initial)])], 0⟩
    held := [0, 1, 2] }

def begin (name : String) : Turn := .begin name channel "/lights/1/state" cache

end Lamp

/-- While another change is open that asks for the brightness there is, a change sets another
brightness, which is in the cached state after its commit. -/
theorem brightness_cached_when_overlapping :
    let before := [Lamp.begin "second"]
    let later := [Turn.set "first" (.brightness 200), .set "second" (.brightness 100)]
    let d := (((Desk.mk .empty Lamp.world).turns before).turn (Lamp.begin "first")).turns later
    (∃ s, Lamp.world.snapshots.get? 0 = some s ∧
        s.value.at? ["1", "state"] = some (.object Lamp.initial)) ∧
      (∀ t ∈ later, t.bounds "first" = false) ∧
      (Desk.mk .empty Lamp.world).SharesAll 0 ["1", "state"]
        (before ++ Lamp.begin "first" :: later ++ [.commit "first"]) ∧
      ∃ held, outcome Lamp.cache.peek (d.turn (.commit "first")).world = .ok (.object held) ∧
        Agrees held ("bri", Setter.level 200) := by
  intro before later d
  have hcached : ∃ s, Lamp.world.snapshots.get? 0 = some s ∧
      s.value.at? ["1", "state"] = some (.object Lamp.initial) := ⟨_, rfl, rfl⟩
  have hlater : ∀ t ∈ later, t.bounds "first" = false := by decide
  have hshares : (Desk.mk .empty Lamp.world).SharesAll 0 ["1", "state"]
      (before ++ Lamp.begin "first" :: later ++ [.commit "first"]) := by decide +kernel
  refine ⟨hcached, hlater, hshares, ?_⟩
  obtain ⟨known, hpeek, -, hcommit⟩ := cached_unless_superseded hcached hlater hshares
  have hread : outcome Lamp.cache.peek
      (((Desk.mk .empty Lamp.world).turns before).turn (Lamp.begin "first")).world =
        .ok (.object Lamp.initial) := rfl
  have hknown : known = Lamp.initial := by
    cases hread.symm.trans hpeek
    rfl
  subst hknown
  have hok : outcome ((start Lamp.channel "/lights/1/state" (.object Lamp.initial)
      (some Lamp.cache)).setAll (settings "first" later)).commit d.world = .ok true := by
    apply eq_ok_of_toOption
    decide +kernel
  obtain ⟨held, hheld, hiff⟩ := hcommit hok
  have hbrightness := hiff "bri" (by decide) _ rfl fun hkey => absurd hkey (by decide)
  refine ⟨held, hheld, hbrightness.mpr ?_⟩
  -- nothing was written in between
  rintro ⟨-, other, hother, -⟩
  nomatch hother

/-- The other change is then committed without a request, since it asks for the brightness that it
began with, and the cached state keeps a brightness that it did not ask for. -/
theorem brightness_lost_when_overlapping :
    let turns := [Lamp.begin "second", Lamp.begin "first", .set "first" (.brightness 200),
      .set "second" (.brightness 100), .commit "first"]
    let d := (Desk.mk .empty Lamp.world).turns turns
    let final := d.turn (.commit "second")
    lastValue? (settings "second" turns) "bri" = some (Setter.level 100) ∧
      (Desk.mk .empty Lamp.world).SharesAll 0 ["1", "state"] (turns ++ [.commit "second"]) ∧
      ((Desk.mk .empty Lamp.world).written turns).length = 1 ∧ final.world.sent.length = 1 ∧
      (d.changes.get? "second").map (fun c => (outcome c.commit d.world).toOption) =
        some (some true) ∧
      ((outcome Lamp.cache.peek final.world).toOption.bind (·.get? "bri")).map
        (·.agrees (Setter.level 100)) = some false := by
  intro turns d final
  refine ⟨rfl, ?_⟩
  decide +kernel

end LightBridge.Change
