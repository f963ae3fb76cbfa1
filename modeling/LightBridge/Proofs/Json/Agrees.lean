import LightBridge.Proofs.Json.Same

/-!
# Values that agree

Agreement is equality made tolerant. Main statement: it does not matter which value is named first,
equal values agree, and where every number is an integer of the signed range only equal values do.
A number beyond that range is compared as the double nearest to it, and there is one: no whole number
of 64 bits overflows the format.
-/

namespace LightBridge

namespace BinaryFormat

variable {f : BinaryFormat} {num k : Nat}

theorem twoPow_spacing_le (hprecision : 0 < f.precision) (hnum : num < twoPow k) :
    twoPow (f.spacing num) ≤ twoPow k := by
  refine twoPow_le ?_
  rcases Nat.eq_zero_or_pos num with rfl | hpos
  · have hzero : f.spacing 0 = 0 := by
      rw [spacing, Nat.log2_zero]
      omega
    rw [hzero]
    exact Nat.zero_le k
  · have hlog : num.log2 < k := (Nat.log2_lt (Nat.ne_of_gt hpos)).mpr hnum
    rw [spacing]
    omega

/-- A number of units that is well below the limit does not overflow. -/
theorem exists_nearest (hprecision : 0 < f.precision) (hnum : num < twoPow k) (hk : k < f.span) :
    ∃ units, f.nearest num 1 = some units := by
  have hround := roundHalfEven_le num (1 * twoPow (f.spacing (num / 1)))
  rw [Nat.div_one, Nat.one_mul] at hround
  have hle : roundHalfEven num (twoPow (f.spacing num)) * twoPow (f.spacing num) ≤
      num + twoPow (f.spacing num) := by
    refine Nat.le_trans (Nat.mul_le_mul_right _ hround) ?_
    rw [Nat.succ_mul]
    exact Nat.add_le_add_right (Nat.div_mul_le_self num _) _
  have hlt : roundHalfEven num (twoPow (f.spacing num)) * twoPow (f.spacing num) <
      twoPow f.span := by
    have hspacing := twoPow_spacing_le hprecision hnum
    have hdouble : twoPow (k + 1) = twoPow k * 2 := twoPow_add k 1
    have hspan : twoPow (k + 1) ≤ twoPow f.span := twoPow_le hk
    omega
  unfold nearest
  dsimp only
  rw [Nat.div_one, Nat.one_mul]
  exact ⟨_, if_pos hlt⟩

end BinaryFormat

theorem Double.exists_ofInt? {i : Int} {k : Nat} (hi : i.natAbs < twoPow k)
    (hk : k + 1074 < BinaryFormat.double.span) : ∃ d, ofInt? i = some d := by
  have hunits : i.natAbs * one < twoPow (k + 1074) := by
    rw [twoPow_add]
    exact Nat.mul_lt_mul_of_pos_right hi (twoPow_pos 1074)
  obtain ⟨units, hnearest⟩ := BinaryFormat.exists_nearest (f := .double) (by decide) hunits hk
  refine Option.isSome_iff_exists.mp ?_
  simp [ofInt?, ofUnits?, hnearest]

namespace Number

variable {a b : Number}

theorem exists_double? (n : Number) : ∃ d, n.double? = some d := by
  cases n with
  | integer i h =>
    have hi : i.natAbs < twoPow 64 := by
      have hpow : twoPow 64 = 0x10000000000000000 := rfl
      omega
    exact Double.exists_ofInt? hi (by decide)
  | double d => exact ⟨d, rfl⟩

theorem agrees_self (n : Number) : n.agrees n = true := by
  unfold agrees
  cases hint : n.int64? with
  | some i => exact beq_self_eq_true i
  | none =>
    obtain ⟨d, hd⟩ := exists_double? n
    rw [hd]
    exact Double.close_of_same d.same_self

theorem agrees_double (x y : Double) : (double x).agrees (double y) = x.close y := by
  simp only [agrees, int64?, double?]

/-- Equal numbers agree. -/
theorem agrees_of_same (h : a.same b = true) : a.agrees b = true := by
  cases a with
  | integer i hi =>
    cases b with
    | integer j hj =>
      rw [same, beq_iff_eq] at h
      subst h
      exact agrees_self _
    | double y => simp [same] at h
  | double x =>
    cases b with
    | integer j hj => simp [same] at h
    | double y =>
      rw [same] at h
      rw [agrees_double]
      exact Double.close_of_same h

/-- No double, and no integer above the signed 64-bit range. -/
def IsSigned : Number → Prop
  | .integer i _ => i < 0x8000000000000000
  | .double _ => False

instance : DecidablePred IsSigned
  | .integer i _ => inferInstanceAs (Decidable (i < 0x8000000000000000))
  | .double _ => inferInstanceAs (Decidable False)

/-- Integers of the signed range agree only when they are equal. -/
theorem same_of_agrees (ha : a.IsSigned) (hb : b.IsSigned) (h : a.agrees b = true) :
    a.same b = true := by
  cases a with
  | integer i hi =>
    cases b with
    | integer j hj =>
      have hsigned : int64? (.integer i hi) = some i := if_pos ha
      have hsigned' : int64? (.integer j hj) = some j := if_pos hb
      rwa [agrees, hsigned, hsigned'] at h
    | double y => exact hb.elim
  | double x => exact ha.elim

end Number

namespace Json

variable {v w : Json} {items items' : List Json}

theorem agrees_number (a b : Number) : (number a).agrees (number b) = a.agrees b := by
  rw [agrees]

theorem agreeItems_iff :
    agreeItems items items' = true ↔
      List.Forall₂ (fun item item' => item.agrees item' = true) items items' := by
  induction items generalizing items' with
  | nil => cases items' <;> simp [agreeItems]
  | cons item rest ih =>
    cases items' with
    | nil => simp [agreeItems]
    | cons item' rest' => rw [agreeItems, Bool.and_eq_true, ih, List.forall₂_cons]

theorem agrees_array_iff :
    (array items).agrees (array items') = true ↔
      List.Forall₂ (fun item item' => item.agrees item' = true) items items' := by
  rw [agrees, agreeItems_iff]

/-- What is the same agrees. -/
theorem agrees_of_same (h : v.same w = true) : v.agrees w = true := by
  induction v generalizing w with
  | number a =>
    cases w with
    | number b =>
      rw [same] at h
      rw [agrees_number]
      exact Number.agrees_of_same h
    | _ => simp [same] at h
  | array items ih =>
    cases w with
    | array items' =>
      rw [same_array_iff] at h
      rw [agrees_array_iff]
      exact forall₂_of_mem h fun item hitem item' _ hsame => ih item hitem hsame
    | _ => simp [same] at h
  | _ => rw [agrees] <;> simp [h]

/-- A well formed value agrees with itself. -/
theorem agrees_self (v : Json) (h : v.WellFormed) : v.agrees v = true :=
  agrees_of_same (same_self v h)

/-- Of two well formed values that agree, either may be named first. -/
theorem agrees_symm (hv : v.WellFormed) (hw : w.WellFormed) (h : v.agrees w = true) :
    w.agrees v = true := by
  induction v generalizing w with
  | array items ih =>
    cases w with
    | array items' =>
      rw [agrees_array_iff] at h ⊢
      refine List.Forall₂.flip (forall₂_of_mem h fun item hitem item' hitem' hagrees => ?_)
      exact ih item hitem (wellFormed_array_iff.mp hv item hitem)
        (wellFormed_array_iff.mp hw item' hitem') hagrees
    | _ => simp [agrees, same] at h
  | number a =>
    cases w with
    | number b =>
      rwa [agrees_number, Number.agrees_comm, ← agrees_number] at h
    | _ => simp [agrees, same] at h
  | _ =>
    rw [agrees] at h
    · exact agrees_of_same (same_symm hv hw h)
    all_goals simp

/-- No double is in the value, and no integer above the signed 64-bit range. -/
inductive Signed : Json → Prop
  | null : Signed .null
  | bool (value : Bool) : Signed (.bool value)
  | number {value : Number} (h : value.IsSigned) : Signed (.number value)
  | string (value : String) : Signed (.string value)
  | array {items : List Json} (h : ∀ item ∈ items, Signed item) : Signed (.array items)
  | object {fields : Fields} (h : ∀ field ∈ fields, Signed field.2) : Signed (.object fields)

/-- While all numbers are integers of the signed range, only what is the same agrees. -/
theorem same_of_agrees (hv : v.Signed) (hw : w.Signed) (h : v.agrees w = true) :
    v.same w = true := by
  induction hv generalizing w with
  | number ha =>
    cases hw with
    | number hb =>
      rw [agrees_number] at h
      rw [same]
      exact Number.same_of_agrees ha hb h
    | _ => simpa [agrees] using h
  | array _ ih =>
    cases hw with
    | array hitems' =>
      rw [agrees_array_iff] at h
      rw [same_array_iff]
      exact forall₂_of_mem h fun item hitem item' hitem' hagrees =>
        ih item hitem (hitems' item' hitem') hagrees
    | _ => simpa [agrees] using h
  | _ => rwa [agrees] at h <;> simp

/-- Lists of doubles, such as colour coordinates, agree when they are close in each place. -/
theorem agrees_doubles_iff (xs ys : List Double) :
    (array (xs.map fun x => number (.double x))).agrees
        (array (ys.map fun y => number (.double y))) = true ↔
      List.Forall₂ (fun x y => x.close y = true) xs ys := by
  simp only [agrees_array_iff, List.forall₂_map_left_iff, List.forall₂_map_right_iff,
    agrees_number, Number.agrees_double]

/-- **Tolerant equality.** Well formed values of any nesting agree whichever is named first, and they
agree when they are the same. While all their numbers are integers of the signed range, they agree
only then; lists of doubles agree when they are close in each place. -/
theorem agreement_is_tolerant_equality (hv : v.WellFormed) (hw : w.WellFormed) :
    v.agrees w = w.agrees v ∧ (v.same w = true → v.agrees w = true) ∧
      (v.Signed → w.Signed → v.agrees w = true → v.same w = true) ∧
      ∀ xs ys : List Double, v = array (xs.map fun x => number (.double x)) →
        w = array (ys.map fun y => number (.double y)) →
        (v.agrees w = true ↔ List.Forall₂ (fun x y => x.close y = true) xs ys) := by
  refine ⟨Bool.eq_iff_iff.mpr ⟨agrees_symm hv hw, agrees_symm hw hv⟩, agrees_of_same,
    same_of_agrees, ?_⟩
  rintro xs ys rfl rfl
  exact agrees_doubles_iff xs ys

/-- The limits of the signed range, and fields in two orders inside of an array. -/
theorem limits_agree_in_two_orders :
    let least := ("least", Json.number (.integer (-0x8000000000000000) (by decide)))
    let greatest := ("greatest", Json.number (.integer 0x7fffffffffffffff (by decide)))
    let v := array [.null, object [least, greatest]]
    let w := array [.null, object [greatest, least]]
    v.WellFormed ∧ w.WellFormed ∧ v.Signed ∧ w.Signed ∧ v.agrees w = true ∧ w.agrees v = true ∧
      v.same w = true := by
  intro least greatest v w
  have hwell (fields : Fields) (hkeys : (Fields.keys fields).Nodup)
      (hfields : ∀ field ∈ fields, field = least ∨ field = greatest) :
      (array [.null, object fields]).WellFormed ∧ (array [.null, object fields]).Signed := by
    simp only [wellFormed_array_iff, wellFormed_object_iff, List.forall_mem_cons]
    refine ⟨⟨trivial, ⟨hkeys, fun field hfield => ?_⟩, nofun⟩, .array ?_⟩
    · rcases hfields field hfield with rfl | rfl <;> trivial
    · simp only [List.forall_mem_cons]
      refine ⟨.null, .object fun field hfield => ?_, nofun⟩
      rcases hfields field hfield with rfl | rfl <;> exact .number (by decide)
  obtain ⟨hv, hsigned⟩ := hwell [least, greatest] (by decide) (by simp)
  obtain ⟨hw, hsigned'⟩ := hwell [greatest, least] (by decide) (by simp)
  have hagrees : v.agrees w = true := by decide
  obtain ⟨hcomm, -, hsame, -⟩ := agreement_is_tolerant_equality hv hw
  exact ⟨hv, hw, hsigned, hsigned', hagrees, hcomm ▸ hagrees, hsame hsigned hsigned' hagrees⟩

-- Beyond the signed range numbers are compared as doubles, and these two have the same one.
example : (number (.integer 0x8000000000000000 (by decide))).agrees
    (number (.integer 0x8000000000000001 (by decide))) = true := by decide +kernel

end Json

end LightBridge
