import LightBridge.Double.Shortest

/-!
Numbers of JSON values.

A number is a whole number in the union of the signed and the unsigned 64-bit range, or a double.
The two kinds are never equal; they only compare with each other within a tolerance.
-/

namespace LightBridge

/-- A whole number of at most 64 bits, signed or unsigned, or a double. -/
inductive Number where
  | integer (value : Int) (inRange : -0x8000000000000000 ≤ value ∧ value < 0x10000000000000000)
  | double (value : Double)
deriving DecidableEq

namespace Number

/-- The number of an integer, when it is in range. -/
def ofInt? (i : Int) : Option Number :=
  if h : -0x8000000000000000 ≤ i ∧ i < 0x10000000000000000 then some (.integer i h) else none

/-- The number of a small natural number. -/
def ofNat (n : Nat) (h : n < 0x10000000000000000) : Number :=
  .integer n ⟨by omega, by omega⟩

instance : Inhabited Number := ⟨ofNat 0 (by decide)⟩

/-- The number of a byte. -/
def ofUInt8 (n : UInt8) : Number := ofNat n.toNat (by have := n.toNat_lt; omega)

/-- The number of a 16-bit word. -/
def ofUInt16 (n : UInt16) : Number := ofNat n.toNat (by have := n.toNat_lt; omega)

/-- The number of a 64-bit word. -/
def ofUInt64 (n : UInt64) : Number := ofNat n.toNat n.toNat_lt

/-- The number of a signed 32-bit integer. -/
def ofInt32 (n : Int32) : Number :=
  .integer n.toInt ⟨by have := n.le_toInt; omega, by have := n.toInt_lt; omega⟩

/-- The integer, when it is in the signed 64-bit range. -/
def int64? : Number → Option Int
  | .integer i _ => if i < 0x8000000000000000 then some i else none
  | .double _ => none

/-- The integer, when it is not negative. -/
def nat64? : Number → Option Nat
  | .integer i _ => if 0 ≤ i then some i.toNat else none
  | .double _ => none

/-- The double nearest to the number. -/
def double? : Number → Option Double
  | .integer i _ => Double.ofInt? i
  | .double d => some d

/-- Plain equality: an integer never equals a double, and both zeros are the same double. -/
def same : Number → Number → Bool
  | .integer a _, .integer b _ => a == b
  | .double a, .double b => a.same b
  | _, _ => false

/-- Equality made tolerant: exact for two integers of the signed range, otherwise closeness of the
nearest doubles. -/
def agrees (a b : Number) : Bool :=
  match a.int64?, b.int64? with
  | some i, some j => i == j
  | _, _ =>
    match a.double?, b.double? with
    | some x, some y => x.close y
    | _, _ => false

/-- The decimal text of a number. -/
def text : Number → List Char
  | .integer i _ => Numeral.ofInt i
  | .double d => d.text

@[simp] theorem same_self (a : Number) : a.same a = true := by
  cases a <;> simp [same]

theorem same_comm (a b : Number) : a.same b = b.same a := by
  cases a <;> cases b <;> simp [same, Double.same_comm, Bool.beq_comm]

theorem agrees_comm (a b : Number) : a.agrees b = b.agrees a := by
  unfold agrees
  cases a.int64? <;> cases b.int64? <;> cases a.double? <;> cases b.double? <;>
    simp [Double.close_comm, Bool.beq_comm]

end Number

end LightBridge
