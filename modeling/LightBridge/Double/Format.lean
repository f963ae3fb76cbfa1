import LightBridge.Double.Power

/-!
Binary floating point formats.

Magnitudes are counted in *units*: the unit of a format is its least positive number, so every
finite number of the format is a whole number of units. A magnitude is represented when it lies
below the overflow limit and has at most `precision` significant bits. Rounding goes to the
nearest represented magnitude, and a half goes to the even neighbour; what it gives is represented.
-/

namespace LightBridge

/-- A binary format: the number of significant bits, and the power of two, in units, that finite
magnitudes stay below. -/
structure BinaryFormat where
  precision : Nat
  span : Nat
deriving DecidableEq, Repr

/-- The quotient rounded to the nearest whole number, a half to the even one. -/
def roundHalfEven (num den : Nat) : Nat :=
  let q := num / den
  let r := num % den
  if 2 * r < den || (2 * r == den && q % 2 == 0) then q else q + 1

namespace BinaryFormat

/-- The 64-bit format; its unit is 2⁻¹⁰⁷⁴. -/
def double : BinaryFormat := ⟨53, 2098⟩

/-- The 32-bit format; its unit is 2⁻¹⁴⁹. -/
def single : BinaryFormat := ⟨24, 277⟩

/-- `units` is the magnitude of a finite number of the format. -/
def Represents (f : BinaryFormat) (units : Nat) : Prop :=
  units < twoPow f.span ∧ ∃ k, twoPow k ∣ units ∧ units ≤ twoPow (k + f.precision)

/-- The power of two, in units, between neighbouring represented magnitudes near `units`. -/
def spacing (f : BinaryFormat) (units : Nat) : Nat :=
  units.log2 + 1 - f.precision

/-- The represented magnitude nearest to `num / den` units, or nothing when that overflows. -/
def nearest (f : BinaryFormat) (num den : Nat) : Option Nat :=
  let k := f.spacing (num / den)
  let units := roundHalfEven num (den * twoPow k) * twoPow k
  if units < twoPow f.span then some units else none

end BinaryFormat

theorem roundHalfEven_le (num den : Nat) : roundHalfEven num den ≤ num / den + 1 := by
  unfold roundHalfEven
  dsimp only
  split <;> omega

theorem roundHalfEven_mul (n : Nat) {den : Nat} (h : 0 < den) :
    roundHalfEven (n * den) den = n := by
  simp [roundHalfEven, Nat.mul_div_cancel n h, Nat.mul_mod_left, h]

namespace BinaryFormat

theorem represents_zero (f : BinaryFormat) : f.Represents 0 :=
  ⟨twoPow_pos _, 0, ⟨0, rfl⟩, Nat.zero_le _⟩

private theorem lt_twoPow_spacing (f : BinaryFormat) (units : Nat) :
    units < twoPow (f.spacing units + f.precision) := by
  have hle : units.log2 + 1 ≤ f.spacing units + f.precision := by
    unfold spacing
    omega
  exact Nat.lt_of_lt_of_le (lt_twoPow_log2 units) (twoPow_le hle)

private theorem rounded_le (f : BinaryFormat) (num den : Nat) :
    roundHalfEven num (den * twoPow (f.spacing (num / den))) ≤ twoPow f.precision := by
  have h := roundHalfEven_le num (den * twoPow (f.spacing (num / den)))
  have hlt : num / den / twoPow (f.spacing (num / den)) < twoPow f.precision := by
    rw [Nat.div_lt_iff_lt_mul (twoPow_pos _), ← twoPow_add, Nat.add_comm]
    exact lt_twoPow_spacing f (num / den)
  rw [← Nat.div_div_eq_div_mul] at h
  omega

theorem represents_of_nearest {f : BinaryFormat} {num den units : Nat}
    (h : f.nearest num den = some units) : f.Represents units := by
  unfold nearest at h
  dsimp only at h
  split at h
  · next hlt =>
    obtain rfl := Option.some.inj h
    refine ⟨hlt, f.spacing (num / den), ⟨_, Nat.mul_comm _ _⟩, ?_⟩
    rw [twoPow_add, Nat.mul_comm]
    exact Nat.mul_le_mul_left _ (rounded_le f num den)
  · cases h

@[simp] theorem nearest_zero (f : BinaryFormat) {den : Nat} (h : 0 < den) :
    f.nearest 0 den = some 0 := by
  have hr : roundHalfEven 0 (den * twoPow (f.spacing 0)) = 0 := by
    simpa using roundHalfEven_mul 0 (Nat.mul_pos h (twoPow_pos (f.spacing 0)))
  simp [nearest, hr, twoPow_pos]

/-- Numbers of a format are numbers of any format that counts in units `twoPow shift` times smaller,
keeps at least as many bits and reaches at least as far. -/
theorem Represents.widen {f g : BinaryFormat} {units : Nat} (shift : Nat)
    (hprecision : f.precision ≤ g.precision) (hspan : f.span + shift ≤ g.span)
    (h : f.Represents units) : g.Represents (units * twoPow shift) := by
  obtain ⟨hlt, k, hk, hle⟩ := h
  refine ⟨?_, k + shift, ?_, ?_⟩
  · have := Nat.mul_lt_mul_of_pos_right hlt (twoPow_pos shift)
    rw [← twoPow_add] at this
    exact Nat.lt_of_lt_of_le this (twoPow_le hspan)
  · rw [twoPow_add]
    exact Nat.mul_dvd_mul_right hk _
  · have := Nat.mul_le_mul_right (twoPow shift) hle
    rw [← twoPow_add] at this
    exact Nat.le_trans this (twoPow_le (by omega))

end BinaryFormat

end LightBridge
