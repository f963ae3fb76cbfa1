import LightBridge.Proofs.Channel.Spacing

/-!
# Several connections

Each connection keeps its own requests apart, and knows nothing of the others. A slot that was just
given out is free, so the first request of a connection goes out at once, however recent the last
request of another one is.
-/

namespace LightBridge

variable {C : Channel → Prop} {d : Nat} {slot : SlotId}

namespace World

/-- Handles in `C` make all attempts, and each slot is used only once it has been given out. -/
def Admits (C : Channel → Prop) : World → List Event → Prop
  | _, [] => True
  | w, e :: rest => (∀ c r, e = .attempt c r → C c ∧ c.slot < w.fresh) ∧ (w.step e).Admits C rest

theorem Admits.mono {D : Channel → Prop} (h : ∀ c, C c → D c) {w : World} {events : List Event}
    (hw : w.Admits C events) : w.Admits D events := by
  induction events generalizing w with
  | nil => trivial
  | cons e rest ih =>
    refine ⟨fun c r he => ?_, ih hw.2⟩
    obtain ⟨hc, hslot⟩ := hw.1 c r he
    exact ⟨h c hc, hslot⟩

theorem admits_append_iff {w : World} {first second : List Event} :
    w.Admits C (first ++ second) ↔ w.Admits C first ∧ (w.play first).Admits C second := by
  induction first generalizing w with
  | nil => exact (iff_of_eq (true_and _)).symm
  | cons e rest ih =>
    rw [List.cons_append, Admits, Admits, ih, and_assoc]
    rfl

theorem admits_of_over {w : World} {events : List Event} (hevents : ∀ e ∈ events, e.Over C)
    (hslots : ∀ c, C c → c.slot < w.fresh) : w.Admits C events := by
  induction events generalizing w with
  | nil => trivial
  | cons e rest ih =>
    refine ⟨fun c r he => ?_, ih (fun e' he' => hevents e' (List.mem_cons_of_mem _ he')) ?_⟩
    · have hc : C c := by
        have hover := hevents e List.mem_cons_self
        rwa [he] at hover
      exact ⟨hc, hslots c hc⟩
    · intro c hc
      exact Nat.lt_of_lt_of_le (hslots c hc) (w.fresh_le_step e)

theorem Admits.keeps {w : World} {events : List Event} (hw : w.Admits C events)
    (hd : ∀ c, C c → c.minDelay = .millis d) (slot : SlotId) : ∀ e ∈ events, e.Keeps slot d := by
  induction events generalizing w with
  | nil => simp
  | cons e rest ih =>
    intro e' he'
    rcases List.mem_cons.mp he' with rfl | he'
    · cases e' with
      | attempt c r => exact fun _ => hd c (hw.1 c r rfl).1
      | _ => trivial
    · exact ih hw.2 e' he'

/-- What goes out goes out in an attempt that was admitted. -/
theorem Admits.exists_attempt {w : World} {events : List Event} (hw : w.Admits C events) {x : Send}
    (hx : x ∈ w.sends events) :
    C x.channel ∧ ∃ v : World, x ∈ v.sendsOf (.attempt x.channel x.sent.request) := by
  obtain ⟨earlier, e, later, rfl, hx'⟩ := exists_of_mem_sends hx
  obtain rfl := eq_attempt_of_mem_sendsOf hx'
  exact ⟨((admits_append_iff.mp hw).2.1 _ _ rfl).1, _, hx'⟩

theorem Admits.of_mem_sends {w : World} {events : List Event} (hw : w.Admits C events) {x : Send}
    (hx : x ∈ w.sends events) : C x.channel :=
  (hw.exists_attempt hx).1

/-- A slot that is not given out yet is not used. -/
theorem Admits.not_through {w : World} {e : Event} {rest : List Event}
    (hw : w.Admits C (e :: rest)) (hslot : w.fresh ≤ slot) :
    (w.sendsOf e).filter (fun x => x.channel.slot = slot) = [] := by
  rw [List.filter_eq_nil_iff]
  intro x hx
  have hlt : x.channel.slot < w.fresh := (hw.1 _ _ (eq_attempt_of_mem_sendsOf hx)).2
  simp only [decide_eq_true_eq]
  exact Nat.ne_of_lt (Nat.lt_of_lt_of_le hlt hslot)

theorem Admits.pairwise_sendsThrough {w : World} {events : List Event} (hw : w.Admits C events)
    (hd : ∀ c, C c → c.minDelay = .millis d) (slot : SlotId) :
    (w.sendsThrough slot events).Pairwise fun a b => a.sent.sentAt + d ≤ b.sent.sentAt := by
  induction events generalizing w with
  | nil => exact List.Pairwise.nil
  | cons e rest ih =>
    -- before the slot is given out nothing passes through it; from then on one slot is spaced
    by_cases hslot : slot < w.fresh
    · exact w.pairwise_sendsThrough hslot _ (hw.keeps hd slot)
    · rw [sendsThrough_cons, hw.not_through (Nat.le_of_not_lt hslot), List.nil_append]
      exact ih hw.2

/-- Requests of one connection are spaced, whatever goes out through others in between. -/
theorem Admits.pairwise_sends {w : World} {events : List Event} (hw : w.Admits C events)
    (hd : ∀ c, C c → c.minDelay = .millis d) :
    (w.sends events).Pairwise fun a b =>
      a.channel.slot = b.channel.slot → a.sent.sentAt + d ≤ b.sent.sentAt := by
  rw [List.pairwise_iff_forall_sublist]
  intro a b hab hsame
  -- two requests of one connection are among those that go through its slot, in the same order
  have hthrough := hw.pairwise_sendsThrough hd b.channel.slot
  rw [sendsThrough, List.pairwise_filter, List.pairwise_iff_forall_sublist] at hthrough
  exact hthrough hab (by simpa using hsame) (by simp)

theorem Admits.sentAt_eq {w : World} {events : List Event} (hw : w.Admits C events)
    (hd : ∀ c, C c → c.minDelay = .millis d) {x : Send} (hx : x ∈ w.sends events) :
    x.sent.sentAt = max x.asked x.free := by
  obtain ⟨hc, v, hx⟩ := hw.exists_attempt hx
  rw [sendsOf_attempt (hd _ hc), List.mem_singleton] at hx
  rw [hx]
  rfl

/-- A slot that is free stays free until somebody uses it. -/
theorem nextAllowed_le_now_step {w : World} (hfree : w.nextAllowed slot ≤ w.now) (e : Event)
    (he : ∀ c r, e = .attempt c r → c.slot ≠ slot) :
    (w.step e).nextAllowed slot ≤ (w.step e).now := by
  have hnow := w.now_le_step e
  -- an event leaves the slot alone, or it is the one that gives the slot out, free from now on
  suffices hnext : (w.step e).nextAllowed slot = w.nextAllowed slot ∨
      (w.step e).nextAllowed slot = w.now by
    rcases hnext with h | h
    · rw [h]
      exact Nat.le_trans hfree hnow
    · rw [h]
      exact hnow
  cases e with
  | attempt c r =>
    refine .inl ?_
    have hne := he c r rfl
    cases hdelay : c.minDelay with
    | millis n =>
      exact nextAllowed_of_slots_set_of_ne w _ _ (by rw [step, Channel.after_attempt hdelay])
        (Ne.symm hne)
    | never =>
      rw [step, Channel.after_attempt_never hdelay]
      rfl
  | newSlot =>
    by_cases hslot : slot = w.fresh
    · subst hslot
      exact .inr (nextAllowed_of_slots_set w _ w.fresh w.now rfl)
    · exact .inl (nextAllowed_of_slots_set_of_ne w _ w.now rfl hslot)
  | patch node value =>
    refine .inl ?_
    simp only [step]
    split <;> rfl
  | pass | rescript | newTransport | newNode | store | settle => exact .inl rfl

/-- The first request through a free slot does not wait. -/
theorem Admits.first_at_once {w : World} {events : List Event} (hw : w.Admits C events)
    (hd : ∀ c, C c → c.minDelay = .millis d) {x : Send}
    (hfree : w.nextAllowed x.channel.slot ≤ w.now) {earlier later : List Send}
    (hsends : w.sends events = earlier ++ x :: later)
    (hfirst : ∀ y ∈ earlier, y.channel.slot ≠ x.channel.slot) : x.sent.sentAt = x.asked := by
  induction events generalizing w earlier with
  | nil => simp at hsends
  | cons e rest ih =>
    by_cases he : ∃ c r, e = .attempt c r
    · obtain ⟨c, r, rfl⟩ := he
      rw [sends_cons, sendsOf_attempt (hd c (hw.1 c r rfl).1), List.singleton_append] at hsends
      cases earlier with
      | nil =>
        -- this is the request itself, and its slot is free
        obtain ⟨rfl, -⟩ := List.cons.inj hsends
        exact Nat.max_eq_left hfree
      | cons y earlier =>
        rw [List.cons_append] at hsends
        obtain ⟨rfl, hrest⟩ := List.cons.inj hsends
        -- a request through another slot, which leaves this one free
        have hne : c.slot ≠ x.channel.slot := hfirst _ List.mem_cons_self
        refine ih hw.2 ?_ hrest fun z hz => hfirst z (List.mem_cons_of_mem _ hz)
        refine nextAllowed_le_now_step hfree _ fun c' r' h => ?_
        cases h
        exact hne
    · -- nothing goes out, and the slot stays free
      have hnone : w.sendsOf e = [] := by
        rw [List.eq_nil_iff_forall_not_mem]
        intro y hy
        exact he ⟨_, _, eq_attempt_of_mem_sendsOf hy⟩
      rw [sends_cons, hnone, List.nil_append] at hsends
      refine ih hw.2 ?_ hsends hfirst
      exact nextAllowed_le_now_step hfree e fun c r h => absurd ⟨c, r, h⟩ he

end World

/-! ## Spacing of everything that goes out -/

theorem isChain_congr_of_pairwise {α : Type} {R S : α → α → Prop} {l : List α}
    (h : l.Pairwise fun a b => R a b ↔ S a b) : l.IsChain R ↔ l.IsChain S := by
  induction l with
  | nil => simp
  | cons a rest ih =>
    cases rest with
    | nil => simp
    | cons b rest =>
      obtain ⟨ha, hrest⟩ := List.pairwise_cons.mp h
      rw [List.isChain_cons_cons, List.isChain_cons_cons, ha b List.mem_cons_self, ih hrest]

/-- Everything is spaced exactly when each request that follows one of another connection is asked
for late enough, or still has to wait for its own slot long enough. -/
theorem World.Admits.spaced_iff {w : World} {events : List Event} (hw : w.Admits C events)
    (hd : ∀ c, C c → c.minDelay = .millis d) :
    (w.sends events).IsChain (fun a b => a.sent.sentAt + d ≤ b.sent.sentAt) ↔
      (w.sends events).IsChain fun a b =>
        a.channel.slot = b.channel.slot ∨ a.sent.sentAt + d ≤ max b.asked b.free := by
  refine isChain_congr_of_pairwise ?_
  rw [List.pairwise_iff_forall_sublist]
  intro a b hab
  have hspaced := List.pairwise_iff_forall_sublist.mp (hw.pairwise_sends hd) hab
  have hb : b ∈ w.sends events := hab.subset (by simp)
  -- the two conditions differ only in requests of one connection, and those are spaced anyway
  rw [hw.sentAt_eq hd hb] at hspaced ⊢
  constructor
  · exact .inr
  · rintro (hsame | hlate)
    · exact hspaced hsame
    · exact hlate

end LightBridge
