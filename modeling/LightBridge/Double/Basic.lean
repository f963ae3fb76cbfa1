import LightBridge.Double.Format

/-!
Finite 64-bit floating point numbers, held exactly.

A `Double` is a sign and a represented magnitude, so arithmetic on it is arithmetic on whole
numbers followed by one rounding. Zero has two signs, which are the same number. Two doubles are
close when their rounded distance is at most the double nearest to 1/10000.
-/

namespace LightBridge

/-- A finite number of the 64-bit format. -/
structure Double where
  negative : Bool
  units : Nat
  represented : BinaryFormat.double.Represents units
deriving DecidableEq

namespace Double

/-- One, in units. -/
def one : Nat := twoPow 1074

/-- Zero with the given sign. -/
def zero (negative : Bool) : Double := ⟨negative, 0, BinaryFormat.represents_zero _⟩

instance : Inhabited Double := ⟨zero false⟩

/-- The number of units, with its sign. -/
def signed (d : Double) : Int :=
  if d.negative then -(d.units : Int) else d.units

/-- The double nearest to `num / den` units with the given sign, unless it overflows. -/
def ofUnits? (negative : Bool) (num den : Nat) : Option Double :=
  (BinaryFormat.double.nearest num den).attach.map fun units =>
    ⟨negative, units.1, BinaryFormat.represents_of_nearest units.2⟩

/-- The double nearest to a whole number. -/
def ofInt? (i : Int) : Option Double :=
  ofUnits? (i < 0) (i.natAbs * one) 1

/-- The rounded product. -/
def mul? (a b : Double) : Option Double :=
  ofUnits? (a.negative != b.negative) (a.units * b.units) one

/-- The rounded quotient; the divisor is not zero. -/
def div? (a b : Double) : Option Double :=
  ofUnits? (a.negative != b.negative) (a.units * one) b.units

/-- The same magnitude with the given sign. -/
def withSign (negative : Bool) (d : Double) : Double := { d with negative }

/-- Equality as numbers: both zeros are the same. -/
def same (a b : Double) : Bool := a.signed == b.signed

/-- The exact distance in units. -/
def distance (a b : Double) : Nat := (a.signed - b.signed).natAbs

/-- The greatest distance at which two doubles are close: the double nearest to 1/10000. -/
def tolerance : Nat := (BinaryFormat.double.nearest one 10000).getD 0

/-- Whether the rounded distance is within the tolerance. -/
def close (a b : Double) : Bool :=
  (BinaryFormat.double.nearest (a.distance b) 1).any (· ≤ tolerance)

@[simp] theorem same_self (a : Double) : a.same a = true := by simp [same]

theorem same_comm (a b : Double) : a.same b = b.same a := Bool.beq_comm

theorem distance_comm (a b : Double) : a.distance b = b.distance a := by
  rw [distance, distance, ← Int.natAbs_neg, Int.neg_sub]

theorem close_comm (a b : Double) : a.close b = b.close a := by
  rw [close, close, distance_comm]

theorem distance_of_same {a b : Double} (h : a.same b = true) : a.distance b = 0 := by
  rw [distance, eq_of_beq h, Int.sub_self, Int.natAbs_zero]

theorem close_of_same {a b : Double} (h : a.same b = true) : a.close b = true := by
  rw [close, distance_of_same h, BinaryFormat.nearest_zero _ Nat.one_pos, Option.any_some]
  exact decide_eq_true (Nat.zero_le _)

/-- A number of the 64-bit format, an infinity, or not a number: what a caller may pass where a
floating point number is asked for. -/
inductive Extended where
  | nan
  | infinite (negative : Bool)
  | finite (d : Double)
deriving DecidableEq, Inhabited

namespace Extended

/-- Closeness of arguments: an infinity or a non-number is close to nothing. -/
def close : Extended → Extended → Bool
  | .finite a, .finite b => a.close b
  | _, _ => false

end Extended

/-- `d` rounded to the 32-bit format; a magnitude beyond its range becomes infinite. -/
def toSingle (d : Double) : Extended :=
  ((BinaryFormat.single.nearest d.units (twoPow 925)).attach.map fun units =>
    Extended.finite ⟨d.negative, units.1 * twoPow 925,
      (BinaryFormat.represents_of_nearest units.2).widen 925 (by decide) (by decide)⟩).getD
    (.infinite d.negative)

namespace Extended

/-- Rounding to the 32-bit format. -/
def toSingle : Extended → Extended
  | .finite d => d.toSingle
  | x => x

/-- `x` moved into the interval from `low` to `high`. A non-number stays, and so does a zero of
either sign when the interval holds zero. -/
def clamp (low high : Double) : Extended → Extended
  | .nan => .nan
  | .infinite negative => .finite (if negative then low else high)
  | .finite d =>
    .finite (if d.signed < low.signed then low else if high.signed < d.signed then high else d)

end Extended

/-- Half of one, or one, and their opposites: the bounds that colour coordinates are kept in. -/
def half (negative : Bool) : Double := (ofUnits? negative one 2).getD (zero negative)

/-- The number one. -/
def unit : Double := (ofInt? 1).getD (zero false)

end Double

end LightBridge
