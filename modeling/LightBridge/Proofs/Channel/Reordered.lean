import LightBridge.Proofs.Channel.Request
import Mathlib.Data.List.Forall2

/-!
# Requests that differ in the order of fields

A transport answers by method and address. Requests whose bodies are the same but for the order of
their fields therefore take the same course from the same world: they go out at the same instants,
get the same replies, and leave the same behind, what was recorded of them apart.
-/

namespace LightBridge

variable {α β : Type} {r r' : Request}

/-- Requests that are equal, or differ in bodies that are the same but for the order of fields. -/
inductive Request.Reordered : Request → Request → Prop where
  | refl (r : Request) : Reordered r r
  | body (c : Channel) (method : Method) (path : String) {v v' : Json} (h : v.same v' = true) :
    Reordered (c.compose method path v) (c.compose method path v')

theorem Request.Reordered.sameRoute (h : r.Reordered r') :
    r'.method = r.method ∧ r'.uri = r.uri := by
  cases h with
  | refl | body => exact ⟨rfl, rfl⟩

/-- The same requests at the same instants, but for the order of fields. -/
def Sent.Reordered (s s' : Sent) : Prop :=
  s'.sentAt = s.sentAt ∧ s.request.Reordered s'.request

/-- Two worlds are the same, but for the order of fields in what was sent. -/
structure World.Beside (w w' : World) : Prop where
  rest : w' = { w with sent := w'.sent }
  sent : List.Forall₂ Sent.Reordered w.sent w'.sent

/-- Two operations end with the same answer or the same error, in worlds that are related. -/
inductive EndIn (R : World → World → Prop) :
    EStateM.Result Fault World α → EStateM.Result Fault World α → Prop where
  | ok {u u' : World} (a : α) (h : R u u') : EndIn R (.ok a u) (.ok a u')
  | error {u u' : World} (e : Fault) (h : R u u') : EndIn R (.error e u) (.error e u')

theorem EndIn.outcome_eq {R : World → World → Prop} {x x' : Act α} {w w' : World}
    (h : EndIn R (x w) (x' w')) : outcome x w = outcome x' w' := by
  unfold outcome
  generalize x w = result at h ⊢
  generalize x' w' = result' at h ⊢
  cases h <;> rfl

theorem EndIn.after {R : World → World → Prop} {x x' : Act α} {w w' : World}
    (h : EndIn R (x w) (x' w')) : R (after x w) (after x' w') := by
  unfold LightBridge.after
  generalize x w = result at h ⊢
  generalize x' w' = result' at h ⊢
  cases h <;> assumption

theorem World.Beside.refl (w : World) : w.Beside w :=
  ⟨rfl, List.forall₂_same.mpr fun s _ => ⟨rfl, .refl s.request⟩⟩

namespace Act

/-- Two operations do the same, but for the order of fields in what they send. -/
def Reorders (x x' : Act α) : Prop := ∀ w w', w.Beside w' → EndIn World.Beside (x w) (x' w')

namespace Reorders

theorem pure (a : α) : Reorders (Pure.pure a : Act α) (Pure.pure a) := fun _ _ h => .ok a h

theorem throw (e : Fault) : Reorders (MonadExcept.throw e : Act α) (MonadExcept.throw e) :=
  fun _ _ h => .error e h

theorem ofExcept (result : Except Fault α) : Reorders (ofExcept result) (ofExcept result) := by
  cases result with
  | ok a => exact .pure a
  | error e => exact .throw e

theorem bind {x x' : Act α} {f f' : α → Act β} (hx : Reorders x x')
    (hf : ∀ a, Reorders (f a) (f' a)) : Reorders (x >>= f) (x' >>= f') := by
  intro w w' h
  have hends := hx w w' h
  simp only [Bind.bind, EStateM.bind]
  generalize x w = result at hends ⊢
  generalize x' w' = result' at hends ⊢
  cases hends with
  | ok a h' => exact hf a _ _ h'
  | error e h' => exact .error e h'

end Reorders

theorem reorders_exchange (transport : TransportId) (h : r.Reordered r') :
    Reorders (exchange transport r) (exchange transport r') := by
  intro w w' hw
  obtain ⟨hmethod, huri⟩ := h.sameRoute
  rw [hw.rest]
  simp only [exchange, hmethod, huri]
  have hsent : List.Forall₂ Sent.Reordered (w.sent ++ [⟨w.now, r⟩]) (w'.sent ++ [⟨w.now, r'⟩]) :=
    List.rel_append hw.sent (.cons ⟨rfl, h⟩ .nil)
  exact .ok _ ⟨rfl, hsent⟩

end Act

namespace Channel

open Act (Reorders)

theorem reorders_claimSlot (c : Channel) : Reorders c.claimSlot c.claimSlot := by
  intro w w' hw
  rw [hw.rest]
  cases hd : c.minDelay with
  | never =>
    simp only [claimSlot, hd, Duration.after?_never]
    exact .error _ ⟨rfl, hw.sent⟩
  | millis d =>
    simp only [claimSlot, hd, Duration.after?_millis]
    exact .ok _ ⟨rfl, hw.sent⟩

theorem reorders_attempt (c : Channel) (h : r.Reordered r') :
    Reorders (c.attempt r) (c.attempt r') :=
  (reorders_claimSlot c).bind fun _ => Act.reorders_exchange c.transport h

theorem reorders_deliver (c : Channel) (h : r.Reordered r') :
    Reorders (c.deliver r) (c.deliver r') := by
  refine (reorders_attempt c h).bind fun outcome => ?_
  cases outcome with
  | ok body => exact .pure body
  | error failure =>
    -- the same failure, so either both try again or neither does
    dsimp only
    split
    · refine (reorders_attempt c h).bind fun outcome => ?_
      cases outcome with
      | ok body => exact .pure body
      | error failure => exact .throw _
    · exact .throw _

theorem reorders_request (c : Channel) (method : Method) (path : String) {v v' : Json}
    (h : v.same v' = true) : Reorders (c.request method path v) (c.request method path v') :=
  (reorders_deliver c (.body c method path h)).bind fun reply => .ofExcept (Reply.read reply)

/-- A write is answered the same way, whatever the order of its fields. -/
theorem reorders_write (c : Channel) (path : String) {fields fields' : Fields}
    (h : (Json.object fields).same (.object fields') = true) (hp : fields.Perm fields') :
    Reorders (c.write path fields) (c.write path fields') := by
  refine (reorders_request c .put path h).bind fun reply => ?_
  have hvalidate : Reply.validate path fields' reply = Reply.validate path fields reply := by
    unfold Reply.validate Reply.acknowledgesAll
    rw [hp.all_eq]
  rw [hvalidate]
  exact .ofExcept (Reply.validate path fields reply)

end Channel

end LightBridge
