import LightBridge.Proofs.Channel.Request
import Mathlib.Data.List.Chain

/-!
# Spacing of requests

All handles of one connection share a slot, and every attempt at a request, the second one of a
request included, passes through it. Whatever else happens in between, the requests that go out
through one slot are therefore at least the delay of the connection apart.
-/

namespace LightBridge

/-- A request that went out: the handle that sent it, the instant at which it asked, the instant
from which the slot was free, what was recorded, and the instant from which the slot is free
again. -/
structure Send where
  channel : Channel
  asked : Instant
  free : Instant
  sent : Sent
  freeAgain : Instant

namespace World

/-- The requests that go out in an event: those that the world records. -/
def sendsOf (w : World) : Event → List Send
  | .attempt c r =>
    ((after (c.attempt r) w).sent.drop w.sent.length).map fun s =>
      ⟨c, w.now, w.nextAllowed c.slot, s, (after (c.attempt r) w).nextAllowed c.slot⟩
  | _ => []

/-- The requests that go out in several events, in order. -/
def sends : World → List Event → List Send
  | _, [] => []
  | w, e :: rest => w.sendsOf e ++ (w.step e).sends rest

@[simp] theorem sends_nil (w : World) : w.sends [] = [] := rfl

theorem sends_cons (w : World) (e : Event) (rest : List Event) :
    w.sends (e :: rest) = w.sendsOf e ++ (w.step e).sends rest := rfl

theorem sendsOf_attempt {c : Channel} {d : Nat} (hd : c.minDelay = .millis d) (r : Request)
    (w : World) :
    w.sendsOf (.attempt c r) =
      [⟨c, w.now, w.nextAllowed c.slot, ⟨c.sendTime w, r⟩, c.sendTime w + d⟩] := by
  have hnext : (after (c.attempt r) w).nextAllowed c.slot = c.sendTime w + d :=
    nextAllowed_of_slots_set w _ c.slot _ (by rw [Channel.after_attempt hd])
  have hsent : (after (c.attempt r) w).sent.drop w.sent.length = [⟨c.sendTime w, r⟩] := by
    rw [Channel.after_attempt hd]
    exact List.drop_left
  simp only [sendsOf, hnext, hsent, List.map_cons, List.map_nil]

theorem sendsOf_attempt_never {c : Channel} (hd : c.minDelay = .never) (r : Request) (w : World) :
    w.sendsOf (.attempt c r) = [] := by
  have hsent : (after (c.attempt r) w).sent.drop w.sent.length = [] := by
    rw [Channel.after_attempt_never hd]
    exact List.drop_length
  simp only [sendsOf, hsent, List.map_nil]

theorem eq_attempt_of_mem_sendsOf {w : World} {e : Event} {x : Send} (hx : x ∈ w.sendsOf e) :
    e = .attempt x.channel x.sent.request := by
  cases e with
  | attempt c r =>
    cases hd : c.minDelay with
    | millis d =>
      rw [sendsOf_attempt hd, List.mem_singleton] at hx
      rw [hx]
    | never =>
      rw [sendsOf_attempt_never hd] at hx
      nomatch hx
  | _ => nomatch hx

/-- What goes out goes out in one of the events, in the world that the earlier ones lead to. -/
theorem exists_of_mem_sends {w : World} {events : List Event} {x : Send} (hx : x ∈ w.sends events) :
    ∃ earlier e later, events = earlier ++ e :: later ∧ x ∈ (w.play earlier).sendsOf e := by
  induction events generalizing w with
  | nil => nomatch hx
  | cons e rest ih =>
    rw [sends_cons] at hx
    rcases List.mem_append.mp hx with hx | hx
    · exact ⟨[], e, rest, rfl, hx⟩
    · obtain ⟨earlier, e', later, rfl, hx'⟩ := ih hx
      exact ⟨e :: earlier, e', later, rfl, hx'⟩

/-- What goes out was attempted. -/
theorem attempt_mem_of_mem_sends {w : World} {events : List Event} {x : Send}
    (hx : x ∈ w.sends events) : .attempt x.channel x.sent.request ∈ events := by
  obtain ⟨earlier, e, later, rfl, hx'⟩ := exists_of_mem_sends hx
  rw [eq_attempt_of_mem_sendsOf hx']
  exact List.mem_append_right earlier List.mem_cons_self

/-- The record of a world grows by what its events send, and by nothing else. -/
theorem sent_step (w : World) (e : Event) :
    (w.step e).sent = w.sent ++ (w.sendsOf e).map (·.sent) := by
  cases e with
  | attempt c r =>
    cases hd : c.minDelay with
    | millis d => simp only [sendsOf_attempt hd, step, Channel.after_attempt hd, List.map_cons,
        List.map_nil]
    | never => simp only [sendsOf_attempt_never hd, step, Channel.after_attempt_never hd,
        List.map_nil, List.append_nil]
  | patch node value =>
    simp only [step, sendsOf, List.map_nil, List.append_nil]
    split <;> rfl
  | pass | rescript | newTransport | newSlot | newNode | store | settle =>
    exact (List.append_nil _).symm

theorem sent_play (w : World) (events : List Event) :
    (w.play events).sent = w.sent ++ (w.sends events).map (·.sent) := by
  induction events generalizing w with
  | nil => exact (List.append_nil _).symm
  | cons e rest ih =>
    rw [play_cons, ih, sent_step, sends_cons, List.map_append, List.append_assoc]

end World

/-! ## One slot -/

/-- Every attempt through `slot` keeps it busy for `d` milliseconds. -/
def Event.Keeps (slot : SlotId) (d : Nat) : Event → Prop
  | .attempt c _ => c.slot = slot → c.minDelay = .millis d
  | _ => True

namespace World

/-- The requests that go out through a slot. -/
def sendsThrough (w : World) (slot : SlotId) (events : List Event) : List Send :=
  (w.sends events).filter fun s => s.channel.slot = slot

variable {slot : SlotId} {d : Nat}

theorem sendsThrough_cons (w : World) (slot : SlotId) (e : Event) (rest : List Event) :
    w.sendsThrough slot (e :: rest) =
      (w.sendsOf e).filter (fun s => s.channel.slot = slot) ++
        (w.step e).sendsThrough slot rest := by
  rw [sendsThrough, sends_cons, List.filter_append]
  rfl

/-- What an event does to a slot that is in use: nothing, or one request goes out through it, no
sooner than it is free, and keeps it busy for the delay. -/
theorem step_slot (w : World) (hslot : slot < w.fresh) (e : Event) (he : e.Keeps slot d) :
    ((w.sendsOf e).filter (fun s => s.channel.slot = slot) = [] ∧
        (w.step e).nextAllowed slot = w.nextAllowed slot) ∨
      ∃ c r, e = .attempt c r ∧ c.slot = slot ∧
        (w.sendsOf e).filter (fun s => s.channel.slot = slot) =
          [⟨c, w.now, w.nextAllowed slot, ⟨c.sendTime w, r⟩, c.sendTime w + d⟩] ∧
        (w.step e).nextAllowed slot = c.sendTime w + d := by
  cases e with
  | attempt c r =>
    by_cases hc : c.slot = slot
    · -- only here the delay must be finite; an attempt elsewhere may wait for ever
      have hd := he hc
      have hnext := nextAllowed_of_slots_set w (w.step (.attempt c r)) c.slot (c.sendTime w + d)
        (by rw [step, Channel.after_attempt hd])
      subst hc
      exact .inr ⟨c, r, rfl, rfl, by rw [sendsOf_attempt hd]; simp, hnext⟩
    · refine .inl ?_
      cases hd : c.minDelay with
      | millis n =>
        refine ⟨by rw [sendsOf_attempt hd]; simp [hc], ?_⟩
        exact nextAllowed_of_slots_set_of_ne w _ _ (by rw [step, Channel.after_attempt hd])
          (Ne.symm hc)
      | never =>
        refine ⟨by rw [sendsOf_attempt_never hd]; rfl, ?_⟩
        rw [step, Channel.after_attempt_never hd]
        rfl
  | newSlot =>
    -- the slot given out is another one, since `slot` is in use
    exact .inl ⟨rfl, nextAllowed_of_slots_set_of_ne w _ w.now rfl (Nat.ne_of_lt hslot)⟩
  | patch node value => exact .inl ⟨rfl, by simp only [step]; split <;> rfl⟩
  | pass | rescript | newTransport | newNode | store | settle => exact .inl ⟨rfl, rfl⟩

/-- A slot does not become free earlier than it was. -/
theorem nextAllowed_le_play (w : World) (hslot : slot < w.fresh) (events : List Event)
    (hevents : ∀ e ∈ events, e.Keeps slot d) :
    w.nextAllowed slot ≤ (w.play events).nextAllowed slot := by
  induction events generalizing w with
  | nil => exact Nat.le_refl _
  | cons e rest ih =>
    have hrest := ih (w.step e) (Nat.lt_of_lt_of_le hslot (w.fresh_le_step e))
      fun e' he' => hevents e' (List.mem_cons_of_mem _ he')
    refine Nat.le_trans ?_ hrest
    rcases w.step_slot hslot e (hevents e List.mem_cons_self) with
      ⟨-, hnext⟩ | ⟨c, r, -, hc, -, hnext⟩
    · exact Nat.le_of_eq hnext.symm
    · rw [hnext, ← hc]
      exact Nat.le_trans (c.nextAllowed_le_sendTime w) (Nat.le_add_right ..)

/-- A request goes out at the instant at which it is asked for, or when the slot is free, and no
sooner than the slot was free at first; the slot is then busy for the delay. -/
theorem of_mem_sendsThrough (w : World) (hslot : slot < w.fresh) (events : List Event)
    (hevents : ∀ e ∈ events, e.Keeps slot d) (s : Send) (hs : s ∈ w.sendsThrough slot events) :
    s.sent.sentAt = max s.asked s.free ∧ s.freeAgain = s.sent.sentAt + d ∧
      w.nextAllowed slot ≤ s.sent.sentAt := by
  induction events generalizing w with
  | nil => simp [sendsThrough] at hs
  | cons e rest ih =>
    have hfresh := Nat.lt_of_lt_of_le hslot (w.fresh_le_step e)
    have hrest : ∀ e' ∈ rest, e'.Keeps slot d := fun e' he' =>
      hevents e' (List.mem_cons_of_mem _ he')
    rw [sendsThrough_cons] at hs
    rcases w.step_slot hslot e (hevents e List.mem_cons_self) with
      ⟨hnone, hnext⟩ | ⟨c, r, -, hc, hone, hnext⟩
    · -- the slot is left as it was, and so is the bound from below
      rw [hnone, List.nil_append] at hs
      rw [← hnext]
      exact ih (w.step e) hfresh hrest hs
    · have hle := c.nextAllowed_le_sendTime w
      rw [hc] at hle
      rw [hone, List.singleton_append, List.mem_cons] at hs
      rcases hs with rfl | hs
      · exact ⟨by rw [Channel.sendTime, hc], rfl, hle⟩
      · -- a later one waits for a slot that has become free later still
        obtain ⟨htime, hfree, hlow⟩ := ih (w.step e) hfresh hrest hs
        refine ⟨htime, hfree, Nat.le_trans ?_ hlow⟩
        rw [hnext]
        exact Nat.le_trans hle (Nat.le_add_right ..)

/-- Requests that go out through one slot are at least the delay apart. -/
theorem pairwise_sendsThrough (w : World) (hslot : slot < w.fresh) (events : List Event)
    (hevents : ∀ e ∈ events, e.Keeps slot d) :
    (w.sendsThrough slot events).Pairwise fun a b => a.sent.sentAt + d ≤ b.sent.sentAt := by
  induction events generalizing w with
  | nil => exact List.Pairwise.nil
  | cons e rest ih =>
    have hfresh := Nat.lt_of_lt_of_le hslot (w.fresh_le_step e)
    have hrest : ∀ e' ∈ rest, e'.Keeps slot d := fun e' he' =>
      hevents e' (List.mem_cons_of_mem _ he')
    rw [sendsThrough_cons]
    rcases w.step_slot hslot e (hevents e List.mem_cons_self) with
      ⟨hnone, -⟩ | ⟨c, r, -, -, hone, hnext⟩
    · rw [hnone, List.nil_append]
      exact ih (w.step e) hfresh hrest
    · rw [hone, List.singleton_append]
      refine List.Pairwise.cons (fun s hs => ?_) (ih (w.step e) hfresh hrest)
      -- whatever goes out later waits until the slot is free after this request
      rw [← hnext]
      exact (of_mem_sendsThrough (w.step e) hfresh rest hrest s hs).2.2

/-- Requests that are spaced span their number, less one, times the delay. -/
theorem span_of_spaced {sends : List Send}
    (h : sends.IsChain fun a b => a.sent.sentAt + d ≤ b.sent.sentAt) {first last : Send}
    (hfirst : sends.head? = some first) (hlast : sends.getLast? = some last) :
    first.sent.sentAt + (sends.length - 1) * d ≤ last.sent.sentAt := by
  induction sends generalizing first with
  | nil => simp at hfirst
  | cons s rest ih =>
    cases rest with
    | nil =>
      simp only [List.head?_cons, List.getLast?_singleton, Option.some.injEq] at hfirst hlast
      subst hfirst hlast
      simp
    | cons t rest =>
      simp only [List.head?_cons, Option.some.injEq] at hfirst
      subst hfirst
      obtain ⟨hst, hchain⟩ := List.isChain_cons_cons.mp h
      have hspan := ih hchain rfl (by rwa [List.getLast?_cons_cons] at hlast)
      have hlength : (s :: t :: rest).length - 1 = (t :: rest).length - 1 + 1 := by simp
      calc s.sent.sentAt + ((s :: t :: rest).length - 1) * d
          = s.sent.sentAt + d + ((t :: rest).length - 1) * d := by
            rw [hlength, Nat.succ_mul, Nat.add_right_comm, Nat.add_assoc]
        _ ≤ t.sent.sentAt + ((t :: rest).length - 1) * d := Nat.add_le_add_right hst _
        _ ≤ last.sent.sentAt := hspan

end World

/-! ## One family of handles -/

/-- An attempt through the slot of `c` is made by a handle derived from `c`. -/
def Event.ByFamily (c : Channel) : Event → Prop
  | .attempt handle _ => handle.slot = c.slot → ∃ username, handle = c.asUser username
  | _ => True

theorem Event.ByFamily.keeps {c : Channel} {d : Nat} (hd : c.minDelay = .millis d) {e : Event}
    (he : e.ByFamily c) : e.Keeps c.slot d := by
  cases e with
  | attempt handle r =>
    intro hslot
    obtain ⟨username, rfl⟩ := he hslot
    exact hd
  | _ => trivial

/-- **Spacing.** A connection with a finite delay is opened, and then anything happens: handles
derived from it, for whatever users, send requests, and between any two attempts time passes and
other handles, of this connection or of others, make theirs. Then a request is one attempt or two;
each attempt goes out now, or when the slot is free, and keeps the slot busy for the delay;
consecutive ones are at least the delay apart; `n` of them span at least `n - 1` delays; they are
what the world records; and the slot never becomes free earlier than it was. -/
theorem requests_of_family_spaced {address : String} {port : UInt16} {username : String} {d : Nat}
    {transport : TransportId} {w₀ w : World} {c : Channel}
    (hopen : Channel.connect address port username (.millis d) transport w₀ = .ok c w)
    (events : List Event) (hfamily : ∀ e ∈ events, e.ByFamily c) :
    (∀ (user : String) (method : Method) (path : String) (body : Json) (v : World),
        let handle := c.asUser user
        let r := handle.compose method path body
        after (handle.request method path body) v =
            v.play (List.replicate (handle.attempts r v) (.attempt handle r)) ∧
          (handle.attempts r v = 1 ∨ handle.attempts r v = 2)) ∧
      (let sends := w.sendsThrough c.slot events;
        (∀ s ∈ sends, s.sent.sentAt = max s.asked s.free ∧ s.freeAgain = s.sent.sentAt + d) ∧
          sends.IsChain (fun a b => a.sent.sentAt + d ≤ b.sent.sentAt) ∧
          (∀ first last, sends.head? = some first → sends.getLast? = some last →
            first.sent.sentAt + (sends.length - 1) * d ≤ last.sent.sentAt)) ∧
      (w.play events).sent = w.sent ++ (w.sends events).map (·.sent) ∧
      ∀ before later, events = before ++ later →
        (w.play before).nextAllowed c.slot ≤ (w.play events).nextAllowed c.slot := by
  rw [Channel.connect_eq] at hopen
  cases hopen
  have hslot : w₀.fresh < (w₀.step .newSlot).fresh := Nat.lt_succ_self _
  have hkeeps := fun e he => (hfamily e he).keeps (d := d) rfl
  have hspaced := (World.pairwise_sendsThrough _ hslot events hkeeps).isChain
  refine ⟨fun user method path body v => ?_, ⟨fun s hs => ?_, hspaced, fun first last => ?_⟩,
    ?_, ?_⟩
  · exact ⟨Channel.after_request .., Channel.attempts_eq_one_or_two ..⟩
  · obtain ⟨htime, hfree, -⟩ := World.of_mem_sendsThrough _ hslot events hkeeps s hs
    exact ⟨htime, hfree⟩
  · exact World.span_of_spaced hspaced
  · exact World.sent_play _ events
  · intro before later hsplit
    have hinUse := Nat.lt_of_lt_of_le hslot (World.fresh_le_play _ before)
    have hlater : ∀ e ∈ later, e.Keeps w₀.fresh d := by
      intro e he
      refine hkeeps e ?_
      rw [hsplit]
      exact List.mem_append_right before he
    rw [hsplit, World.play_append]
    exact World.nextAllowed_le_play _ hinUse later hlater

theorem requests_of_two_users_spaced :
    ∃ c w, Channel.connect "192.168.2.116" 80 "a" (.millis 100) 0 (World.start.step
        (.newTransport (.silent 7))) = .ok c w ∧
      let b := c.asUser "b"
      (w.sendsThrough c.slot
        [.attempt c (c.compose .get "lights" (.object [])), .pass 30,
          .attempt b (b.compose .get "lights" (.object []))]).IsChain
        fun a b => a.sent.sentAt + 100 ≤ b.sent.sentAt := by
  have hopen := Channel.connect_eq "192.168.2.116" 80 "a" (.millis 100) 0
    (World.start.step (.newTransport (.silent 7)))
  refine ⟨_, _, hopen, ?_⟩
  refine (requests_of_family_spaced hopen _ fun e he => ?_).2.1.2.1
  simp only [List.mem_cons, List.not_mem_nil, or_false] at he
  rcases he with rfl | rfl | rfl
  · exact fun _ => ⟨"a", rfl⟩
  · trivial
  · exact fun _ => ⟨"b", rfl⟩

end LightBridge
