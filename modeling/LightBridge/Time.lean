import LightBridge.Text.Numeral

/-!
Instants and durations.

Time is counted in milliseconds from the start of the clock. A duration is finite or *never*; a
finite duration can be added to every instant, and *never* to none. There is no last instant here: a
run on a clock that has one is a run that stays within it.
-/

namespace LightBridge

/-- Milliseconds since the clock was started. -/
abbrev Instant := Nat

/-- A length of time. -/
inductive Duration where
  | millis (count : Nat)
  | never
deriving DecidableEq, Repr, Inhabited

namespace Duration

/-- The instant that lies `d` after `start`, if there is one. -/
def after? (d : Duration) (start : Instant) : Option Instant :=
  match d with
  | .millis n => some (start + n)
  | .never => none

/-- Whether a wait that began `elapsed` milliseconds ago has lasted this long. -/
def hasPassed (d : Duration) (elapsed : Nat) : Bool :=
  match d with
  | .millis n => n ≤ elapsed
  | .never => false

/-- The digits of a fraction of a second, without the zeros at the end. -/
def fractionDigits (milliseconds : Nat) : List Char :=
  let padded := (Numeral.digits (1000 + milliseconds)).drop 1
  (padded.reverse.dropWhile (· == '0')).reverse

/-- A readable form: seconds with the fraction that is needed, milliseconds below one second, and
nanoseconds for nothing at all. Never is the greatest length that can be written. -/
def text : Duration → String
  | .millis n =>
    if n = 0 then "0ns"
    else if n < 1000 then Numeral.nat n ++ "ms"
    else if n % 1000 = 0 then Numeral.nat (n / 1000) ++ "s"
    else Numeral.nat (n / 1000) ++ "." ++ String.ofList (fractionDigits (n % 1000)) ++ "s"
  | .never => "18446744073709551615.999999999s"

@[simp] theorem after?_millis (n : Nat) (start : Instant) :
    (millis n).after? start = some (start + n) := rfl

@[simp] theorem after?_never (start : Instant) : never.after? start = none := rfl

end Duration

end LightBridge
