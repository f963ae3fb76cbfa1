import LightBridge.Proofs.Deed
import LightBridge.Proofs.Json.WellFormed

/-!
# What roots hold is well formed

A root holds what was read from a reply, which is well formed, and updates of it. As long as the
updates keep a value well formed, so is whatever the roots of a world hold.
-/

namespace LightBridge

theorem Reply.wellFormed_of_read {body : String} {v : Json} (h : Reply.read body = .ok v) :
    v.WellFormed := by
  unfold Reply.read at h
  split at h
  · cases h
  · split at h
    · cases h
      exact Json.wellFormed_of_read? ‹_›
    · cases h

theorem Cache.wellFormed_of_answer {path : String} {channel : Channel} {w : World} {reply : Json}
    (h : Cache.answer path channel w = .ok reply) : reply.WellFormed := by
  obtain ⟨v, hv, hrest⟩ := exists_of_bind_eq_ok h
  obtain ⟨_, -, hsame⟩ := exists_of_bind_eq_ok hrest
  cases hsame
  rw [Channel.outcome_request] at hv
  obtain ⟨body, -, hread⟩ := exists_of_bind_eq_ok hv
  exact Reply.wellFormed_of_read hread

namespace World

/-- Whatever a root holds is well formed. -/
def WellFormed (w : World) : Prop := w.snapshots.All fun s => s.value.WellFormed

variable {w : World}

theorem WellFormed.of_nothing (h : w.snapshots = .empty) : w.WellFormed := by
  rw [WellFormed, h]
  exact Table.All.empty

theorem WellFormed.of_sameCaches {w' : World} (h : w.WellFormed) (hsame : Channel.SameCaches w w') :
    w'.WellFormed := by
  rw [WellFormed, hsame.snapshots]
  exact h

end World

/-- A deed that puts nothing but well formed values into a root. -/
def Deed.KeepsForm : Deed → Prop
  | .event (.store _ value) | .event (.patch _ value) => value.WellFormed
  | .event _ | .fetch .. => True
  | .update _ f => ∀ v, v.WellFormed → (f v).WellFormed

namespace World

variable {w : World} {d : Deed}

theorem WellFormed.step (h : w.WellFormed) {e : Event} (he : (Deed.event e).KeepsForm) :
    (w.step e).WellFormed := by
  cases e with
  | attempt c r => exact h.of_sameCaches (Channel.sameCaches_attempt c r w)
  | store node reply => exact Table.All.set h node he
  | patch node value =>
    unfold World.step
    dsimp only
    split
    · exact Table.All.set h node he
    · exact h
  | pass | rescript | newTransport | newSlot | newNode | settle => exact h

theorem WellFormed.update (h : w.WellFormed) (c : Cache) {f : Json → Json}
    (hf : ∀ v, v.WellFormed → (f v).WellFormed) : (after (c.patch f) w).WellFormed := by
  cases hview : c.view w with
  | error e => rwa [after_of_error (Cache.patch_of_view_error hview f)]
  | ok v =>
    obtain ⟨s, hs, hat, hpatch⟩ := Cache.patch_of_view hview f
    have hvalue : s.value.WellFormed := h _ _ hs
    rw [after_of_ok hpatch]
    exact Table.All.set h _
      (Json.wellFormed_putAt hvalue (hf v (Json.wellFormed_at? hvalue hat)) c.keys)

theorem WellFormed.enact (h : w.WellFormed) (hd : d.KeepsForm) : (w.enact d).WellFormed := by
  cases d with
  | event e => exact h.step hd
  | update c f => exact h.update c hd
  | fetch node path channel interval =>
    have hanswered : (Cache.answered path channel w).WellFormed :=
      h.of_sameCaches (channel.sameCaches_request .get path (.object []) w)
    rw [World.enact]
    cases hanswer : Cache.answer path channel w with
    | error e => rwa [Cache.after_fetch_of_error hanswer]
    | ok reply =>
      rw [Cache.after_fetch_of_ok hanswer]
      exact hanswered.step (Cache.wellFormed_of_answer hanswer)

/-- Fetches, and updates that keep a value well formed, leave well formed values only. -/
theorem WellFormed.enactAll (h : w.WellFormed) {deeds : List Deed}
    (hdeeds : ∀ d ∈ deeds, d.KeepsForm) : (w.enactAll deeds).WellFormed := by
  induction deeds generalizing w with
  | nil => exact h
  | cons d rest ih =>
    have hfirst := h.enact (hdeeds d List.mem_cons_self)
    exact ih hfirst fun d' hd' => hdeeds d' (List.mem_cons_of_mem d hd')

end World

end LightBridge
