import LightBridge.Proofs.Twins.Run

/-!
# A run beside itself

Every run corresponds to itself. What is said of two runs says of one that it asks only what may be
asked and adds an endless duration only where that may be tried, and that all names in it were given
out before.
-/

namespace LightBridge

variable {t : Twins} {n : Nat} {α : Type} {since : Nat} {transport : TransportId}
  {asked : Request → Prop} {endless : Prop}

/-- A run beside itself, compared from the name `since` on. -/
def Twins.itself (since : Nat) (transport : TransportId) (asked : Request → Prop) (endless : Prop) :
    Twins where
  since := since
  since' := since
  transport := transport
  transport' := transport
  apart a ha hne := by rwa [Nat.sub_add_cancel ha]
  asked := asked
  endless := endless

namespace Twins

theorem name_itself {a : Nat} (ha : (itself since transport asked endless).since ≤ a) :
    (itself since transport asked endless).across.name a = a :=
  Nat.sub_add_cancel ha

theorem transport_itself {a : TransportId} (ha : since ≤ a ∨ a = transport) :
    (itself since transport asked endless).across.transport a = a := by
  by_cases h : a = transport
  · exact (if_pos h).trans h.symm
  · exact (if_neg h).trans (Nat.sub_add_cancel (ha.resolve_right h))

theorem Worlds.itself {w : World} (htidy : w.Tidy) (hsince : since ≤ w.fresh)
    (htransport : transport < w.fresh) :
    (Twins.itself since transport asked endless).Worlds w w where
  now := rfl
  since := hsince
  fresh := (name_itself hsince).symm
  old := htransport
  slots _ ha := congrArg w.slots.get? (name_itself ha)
  scripts _ ha := congrArg w.script (transport_itself ha)
  snapshots _ ha := congrArg w.snapshots.get? (name_itself ha)
  holds _ ha := congrArg w.holds (name_itself ha)
  tidy := htidy

end Twins

theorem World.tidy_start : World.start.Tidy :=
  ⟨fun _ _ => rfl, fun _ _ => rfl, fun _ _ => rfl, fun _ h => absurd h List.not_mem_nil⟩

theorem World.Tidy.newTransport {w : World} (h : w.Tidy) (script : Script) :
    (w.step (.newTransport script)).Tidy where
  slots a ha := h.slots a (Nat.le_of_succ_le ha)
  transports :=
    Table.get?_set_none script (Nat.lt_succ_self _) fun a ha =>
      h.transports a (Nat.le_of_succ_le ha)
  snapshots a ha := h.snapshots a (Nat.le_of_succ_le ha)
  held a ha := Nat.lt_succ_of_lt (h.held a ha)

theorem ActsAlike.of_ok {Q : Tie α} {x x' : Act α} {w w' u u' : World} {a a' : α}
    (hx : ActsAlike t n Q x x') (hn : n ≤ w.fresh) (hworlds : t.Worlds w w') (h : x w = .ok a u)
    (h' : x' w' = .ok a' u') : Q.Rel u.fresh a a' ∧ t.Moved id .any w w' u u' := by
  have hends := hx w w' hn hworlds trivial
  rw [h, h'] at hends
  cases hends with
  | ok ha hmoved => exact ⟨ha, hmoved⟩

namespace BridgeSession

variable {config : Config} {script : Script} {s : BridgeSession} {w : World}

/-- A new session has nothing that was there before. -/
theorem start_itself (hconfig : config.Fits (.itself 0 0 asked endless))
    (hasked : config.Asks (.itself 0 0 asked endless))
    (hstart : start config script World.start = .ok s w) :
    StatesAlike (.itself 0 0 asked endless) (fun _ => False) (fun _ => False) (s, w) (s, w) := by
  -- the transport is made first, then the bridge is connected over it
  obtain ⟨transport, u, hadd, hrest⟩ := exists_of_bind_ok hstart
  cases hadd
  obtain ⟨b, u', hconnect, hlast⟩ := exists_of_bind_ok hrest
  cases hlast
  have hworlds : (Twins.itself 0 0 asked endless).Worlds _ _ :=
    .itself (World.tidy_start.newTransport script) (Nat.zero_le _) (Nat.zero_lt_succ _)
  have hreaches : (Twins.itself 0 0 asked endless).Reaches 0 World.start.fresh := .inr rfl
  obtain ⟨hb, hmoved⟩ := (Bridge.alike_connect hconfig hasked hreaches).of_ok (Nat.zero_le _)
    hworlds hconnect hconnect
  have hempty {β : Type} [Holder β] : (Twins.itself 0 0 asked endless).Tables w.fresh
      (fun _ => False) (.empty : Table String β) .empty :=
    ⟨fun _ => .inl ⟨rfl, nofun⟩, .empty, .empty⟩
  exact ⟨hmoved.worlds, hb, hempty, hempty⟩

/-- What a session and its world can be. -/
def Reachable (s : BridgeSession × World) : Prop :=
  ∃ config script s₁ w₁ commands, start config script World.start = .ok s₁ w₁ ∧
    s = stateAfter (s₁, w₁) commands

/-- Everything in a session that can be had was given out before, and so was what its world has. -/
theorem Reachable.itself {s : BridgeSession × World} (h : Reachable s) :
    StatesAlike (.itself 0 0 (fun _ => True) True) (fun _ => False) (fun _ => False) s s := by
  obtain ⟨config, script, s₁, w₁, commands, hstart, rfl⟩ := h
  have hconfig : config.Fits (.itself 0 0 (fun _ => True) True) :=
    ⟨fun _ => trivial, fun _ _ => trivial⟩
  refine (run_alike (start_itself hconfig (fun _ _ _ _ _ => trivial) hstart) fun c _ => ?_).2
  exact ⟨fun _ => trivial, fun _ _ => trivial, fun _ _ => not_false, fun _ _ => not_false⟩

end BridgeSession

end LightBridge
