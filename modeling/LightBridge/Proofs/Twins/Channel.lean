import LightBridge.Proofs.Twins.Alike

/-!
# Requests side by side

Requests over channels that correspond wait for the same time, are the same requests, and get the
same answers from the scripts of transports that correspond.
-/

namespace LightBridge

variable {t : Twins} {n m : Nat}

namespace Channel

/-- The channel with other names for its slot and its transport. -/
def rename (r : Renaming) (c : Channel) : Channel :=
  { c with slot := r.name c.slot, transport := r.transport c.transport }

/-- The channel belongs to both runs, everything that it can send may be sent, and only where an
endless wait may be tried it has an endless delay. -/
structure Within (t : Twins) (n : Nat) (c : Channel) : Prop where
  slot : t.Has n c.slot
  transport : t.Reaches n c.transport
  asked : ∀ method path body, t.asked (c.compose method path body)
  minDelay : c.minDelay = .never → t.endless

theorem Within.mono {c : Channel} (h : c.Within t n) (hnm : n ≤ m) : c.Within t m :=
  ⟨h.slot.mono hnm, h.transport.mono hnm, h.asked, h.minDelay⟩

theorem Within.asUser {c : Channel} (h : c.Within t n) (hasked : ∀ r, t.asked r)
    (username : String) : (c.asUser username).Within t n :=
  ⟨h.slot, h.transport, fun _ _ _ => hasked _, h.minDelay⟩

instance : Named Channel where
  rename := rename
  Within := Within
  mono hnm h := h.mono hnm
  rename_rename _ _ _ := rfl

end Channel

theorem Act.alike_exchange {transport : TransportId} (h : t.Reaches n transport) {r : Request}
    (hr : t.asked r) :
    ActsAlike t n (.same _) (exchange transport r) (exchange (t.across.transport transport) r) := by
  refine .intro fun w w' hn hworlds => ?_
  have hscript : w'.script (t.across.transport transport) = w.script transport :=
    hworlds.scripts transport h.since
  have hnow : w'.now = w.now := hworlds.now
  simp only [exchange, hscript, hnow]
  refine .ok rfl ⟨Nat.le_refl _, ?_, trivial, [⟨w.now, r⟩], rfl, rfl, ?_⟩
  · exact (hworlds.setScript (h.mono hn) _).send.pass rfl
  · rintro x hx
    rw [List.mem_singleton.mp hx]
    exact hr

/-! ## Faults of replies -/

namespace Reply

variable {e : Fault}

theorem read_ne_timeOverflow {body : String} (h : read body = .error e) : e ≠ .timeOverflow := by
  unfold read at h
  split at h
  · cases h
    exact Fault.noConfusion
  · split at h
    · cases h
    · cases h
      exact Fault.noConfusion

theorem check_ne_timeOverflow {reply : Json} (h : check reply = .error e) : e ≠ .timeOverflow := by
  unfold check at h
  split at h
  · cases h
    exact Fault.noConfusion
  · cases h

theorem validate_ne_timeOverflow {path : String} {fields : Fields} {reply : Json}
    (h : validate path fields reply = .error e) : e ≠ .timeOverflow := by
  unfold validate at h
  cases hcheck : check reply with
  | error e' =>
    rw [hcheck] at h
    cases h
    exact check_ne_timeOverflow hcheck
  | ok _ =>
    rw [hcheck] at h
    cases reply with
    | array entries => cases h
    | _ =>
      cases h
      exact Fault.noConfusion

end Reply

/-! ## Requests -/

namespace Channel

variable {c : Channel}

theorem alike_claimSlot (hc : c.Within t n) :
    ActsAlike t n .any c.claimSlot (c.rename t.across).claimSlot := by
  refine .intro fun w w' hn hworlds => ?_
  have hstart : max w'.now (w'.nextAllowed (t.across.name c.slot)) = c.sendTime w := by
    rw [hworlds.now, hworlds.nextAllowed hc.slot.1]
    rfl
  have hpass : t.Worlds { w with now := c.sendTime w } { w' with now := c.sendTime w } :=
    hworlds.pass rfl
  cases hd : c.minDelay with
  | never =>
    simp only [claimSlot, rename, hd, hstart, Duration.after?_never]
    exact .error (fun _ => hc.minDelay hd) (.silent (Nat.le_refl _) hpass trivial rfl rfl)
  | millis d =>
    simp only [claimSlot, rename, hd, hstart, Duration.after?_millis]
    exact .quiet trivial (Nat.le_refl _) (hpass.setSlot (hc.slot.mono hn) rfl) rfl rfl

theorem alike_attempt (hc : c.Within t n) {r : Request} (hr : t.asked r) :
    ActsAlike t n (.same _) (c.attempt r) ((c.rename t.across).attempt r) :=
  (alike_claimSlot hc).andThen (Act.alike_exchange hc.transport hr)

theorem alike_deliver (hc : c.Within t n) {r : Request} (hr : t.asked r) :
    ActsAlike t n (.same _) (c.deliver r) ((c.rename t.across).deliver r) := by
  refine (alike_attempt hc hr).bind fun m answer _ hm h => ?_
  cases h
  cases answer with
  | ok body => exact .pure rfl
  | error failure =>
    -- the same failure, so either both try again or neither does
    cases hfailure : failure.isTransient with
    | false =>
      simp only [hfailure, Bool.false_eq_true, if_false]
      exact .throw nofun
    | true =>
      simp only [hfailure, if_true]
      refine (alike_attempt (hc.mono hm) hr).bind fun m answer _ _ h => ?_
      cases h
      cases answer with
      | ok body => exact .pure rfl
      | error failure => exact .throw nofun

theorem alike_request (hc : c.Within t n) (method : Method) (path : String) (body : Json) :
    ActsAlike t n (.same Json) (c.request method path body)
      ((c.rename t.across).request method path body) := by
  refine (alike_deliver hc (hc.asked method path body)).bind fun m reply _ _ h => ?_
  cases h
  exact Act.alike_ofExcept (fun _ _ => rfl) fun _ => Reply.read_ne_timeOverflow

theorem alike_write (hc : c.Within t n) (path : String) (fields : Fields) :
    ActsAlike t n (.same Bool) (c.write path fields) ((c.rename t.across).write path fields) := by
  refine (alike_request hc .put path (.object fields)).bind fun m reply _ _ h => ?_
  cases h
  exact Act.alike_ofExcept (fun _ _ => rfl) fun _ => Reply.validate_ne_timeOverflow

theorem alike_connect (address : String) (port : UInt16) (username : String) {minDelay : Duration}
    (hasked : ∀ slot transport method path body,
      t.asked (compose ⟨address, port, username, minDelay, slot, transport⟩ method path body))
    (hdelay : minDelay = .never → t.endless) {transport : TransportId}
    (h : t.Reaches n transport) :
    ActsAlike t n (.named t Channel) (connect address port username minDelay transport)
      (connect address port username minDelay (t.across.transport transport)) := by
  refine .intro fun w w' hn hworlds => ?_
  rw [connect_eq, connect_eq]
  refine .quiet ⟨?_, ?_⟩ (Nat.le_succ _) hworlds.newSlot rfl rfl
  · rw [hworlds.fresh]
    rfl
  · exact ⟨hworlds.has_fresh, h.mono (Nat.le_succ_of_le hn), hasked _ _, hdelay⟩

end Channel

end LightBridge
