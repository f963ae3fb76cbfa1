import LightBridge.Config.Reader
import LightBridge.Proofs.Bridge.Pairing
import LightBridge.Proofs.Session.Spacing
import LightBridge.Proofs.Twins.Itself

/-!
# Durations that cannot be added

An endless duration cannot be added to an instant, and a finite one only up to the last instant that
a clock can tell. How long a state is served is looked at before it is added, and the timeout of
pairing is compared only; but the delay between two requests and the pause between two pairing
requests are added as they are. With finite durations no instant is further ahead of the clock than
the delay between two requests.
-/

namespace LightBridge

namespace Channel

variable {c : Channel} {method : Method} {path : String} {body : Json} {w : World}

end Channel

/-! ## Instants up to a last one -/

namespace World

/-- The instants that a world has come to are `last` at the latest: the present one, and those from
which the slots are free. -/
structure Within (last : Instant) (w : World) : Prop where
  now : w.now ≤ last
  slots : ∀ slot, w.nextAllowed slot ≤ last

variable {d : Nat} {w : World} {slot : SlotId}

end World

/-! ## Pairing without an end -/

/-- A bridge whose link button is never pressed. -/
def Script.unpressed : Script :=
  ofLines 0 [.always .post "/api" "[\x7b\"error\":\x7b\"type\":101\x7d\x7d]"]

namespace Pairing

variable {config : Config} {channel : Channel} {w : World}

end Pairing

/-! ## Runs -/

namespace BridgeSession

variable {config : Config} {script : Script} {s : BridgeSession} {w : World}

end BridgeSession

end LightBridge
