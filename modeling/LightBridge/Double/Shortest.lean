import LightBridge.Double.Basic
import LightBridge.Text.Numeral

/-!
The shortest decimal text of a double.

Every double is the nearest one for a whole interval of numbers around it; the ends belong to the
interval when the significand is even. Among the decimals in that interval the text takes one with
the fewest digits and, of those, the one nearest to the double, a tie going to the even digit.
-/

namespace LightBridge.Double

/-- A decimal significand and the power of ten that it is multiplied by. -/
structure Decimal where
  significand : Nat
  exponent : Int
deriving DecidableEq, Repr

/-- The interval of numbers that round to a magnitude, in quarters of a unit. -/
structure Neighbourhood where
  low : Nat
  high : Nat
  closed : Bool
deriving Repr

/-- The interval that rounds to the magnitude `units`, which is not zero. Below a power of two the
neighbour is half as far as above it. -/
def neighbourhood (units : Nat) : Neighbourhood :=
  let k := BinaryFormat.double.spacing units
  let step := twoPow k
  let isPowerOfTwo := units == twoPow (k + BinaryFormat.double.precision - 1)
  { low := 4 * units - (if isPowerOfTwo && 0 < k then step else 2 * step)
    high := 4 * units + 2 * step
    closed := units / step % 2 == 0 }

/-- Whether `scaled / multiplier` quarters of a unit lie in the interval. -/
def Neighbourhood.holds (n : Neighbourhood) (scaled multiplier : Nat) : Bool :=
  if n.closed then n.low * multiplier ≤ scaled && scaled ≤ n.high * multiplier
  else n.low * multiplier < scaled && scaled < n.high * multiplier

/-- One, in quarters of a unit. -/
def quarters : Nat := 4 * one

/-- The exponent of the leading decimal digit of the magnitude `units`, which is not zero. -/
def leadingExponent (units : Nat) : Int :=
  if quarters ≤ 4 * units then
    ((Numeral.digits (4 * units / quarters)).length : Int) - 1
  else
    match (List.range 400).find? fun j => quarters ≤ 4 * units * tenPow j with
    | some j => -(j : Int)
    | none => 0

/-- The decimal with the given last exponent that is next to `units` and rounds to it. -/
def onGrid? (units : Nat) (exponent : Int) : Option Decimal :=
  let (grow, shrink) : Nat × Nat := match exponent with
    | .ofNat e => (tenPow e, 1)
    | .negSucc e => (1, tenPow (e + 1))
  let n := neighbourhood units
  let target := 4 * units * shrink
  let below := target / (quarters * grow)
  let scaled (c : Nat) := c * quarters * grow
  match n.holds (scaled below) shrink, n.holds (scaled (below + 1)) shrink with
  | true, true =>
    let less := target - scaled below
    let more := scaled (below + 1) - target
    let nearer := if less < more || (less == more && below % 2 == 0) then below else below + 1
    some ⟨nearer, exponent⟩
  | true, false => some ⟨below, exponent⟩
  | false, true => some ⟨below + 1, exponent⟩
  | false, false => none

/-- `d` without the zeros at the end of its significand. -/
def Decimal.reduce (d : Decimal) : Decimal :=
  let zeros := ((Numeral.digits d.significand).reverse.takeWhile (· == '0')).length
  ⟨d.significand / tenPow zeros, d.exponent + zeros⟩

/-- The shortest decimal that rounds to the magnitude `units`, which is not zero. Seventeen digits
always suffice. -/
def shortest (units : Nat) : Decimal :=
  let leading := leadingExponent units
  ((List.range 17).findSome? fun n : Nat => onGrid? units (leading - n)).elim ⟨0, 0⟩ Decimal.reduce

/-- Digits and a point, or a power of ten when the first digit stands above the sixteenth place
before the point or below the fifth place after it. -/
def Decimal.text (d : Decimal) : List Char :=
  let digits := Numeral.digits d.significand
  let place := d.exponent + digits.length
  if 0 ≤ d.exponent && place ≤ 16 then
    digits ++ List.replicate d.exponent.toNat '0' ++ ['.', '0']
  else if 0 < place && place ≤ 16 then
    digits.take place.toNat ++ '.' :: digits.drop place.toNat
  else if -5 < place && place ≤ 0 then
    '0' :: '.' :: List.replicate (-place).toNat '0' ++ digits
  else
    let fraction := digits.drop 1
    let power := place - 1
    digits.take 1 ++ (if fraction.isEmpty then [] else '.' :: fraction) ++
      'e' :: (if power < 0 then [] else ['+']) ++ Numeral.ofInt power

/-- The decimal text of a double. -/
def text (d : Double) : List Char :=
  let magnitude := if d.units = 0 then ['0', '.', '0'] else (shortest d.units).text
  if d.negative then '-' :: magnitude else magnitude

end LightBridge.Double
