import LightBridge.Double.Basic

/-!
Doubles from decimal notation.

A decimal numeral is a whole significand and a power of ten. Its double is computed in two
roundings: the significand is rounded first, then the result is multiplied or divided by the
rounded power of ten. Powers beyond the 308th are divided out in several steps, and a positive
power beyond it overflows unless the significand is zero.
-/

namespace LightBridge.Double

/-- The greatest power of ten that a double can hold. -/
def maxPowerOfTen : Nat := 308

/-- The double nearest to a power of ten, for exponents up to `maxPowerOfTen`. -/
def powerOfTen? (exponent : Nat) : Option Double :=
  ofInt? (tenPow exponent)

/-- `d` divided by a power of ten. -/
def over? (d : Double) (exponent : Nat) : Option Double :=
  (powerOfTen? exponent).bind d.div?

/-- `d` divided a number of times by the greatest power of ten; a zero stays as it is. -/
def overMax? : Nat → Double → Option Double
  | 0, d => some d
  | steps + 1, d => if d.units = 0 then some d else (d.over? maxPowerOfTen).bind (overMax? steps)

/-- `d` divided by a positive power of ten, in steps of at most `maxPowerOfTen`. -/
def shrink? (d : Double) (exponent : Nat) : Option Double :=
  let steps := (exponent - 1) / maxPowerOfTen
  (overMax? steps d).bind fun rest => rest.over? (exponent - steps * maxPowerOfTen)

/-- `d` multiplied by a power of ten. -/
def grow? (d : Double) (exponent : Nat) : Option Double :=
  if exponent ≤ maxPowerOfTen then (powerOfTen? exponent).bind d.mul?
  else if d.units = 0 then some d
  else none

/-- The double of a significand times a power of ten with the given sign, or nothing when it is
too large. -/
def ofDecimal? (negative : Bool) (significand : Nat) (exponent : Int) : Option Double := do
  let d ← ofInt? significand
  let scaled ← match exponent with
    | .ofNat e => d.grow? e
    | .negSucc e => d.shrink? (e + 1)
  pure (scaled.withSign negative)

end LightBridge.Double
