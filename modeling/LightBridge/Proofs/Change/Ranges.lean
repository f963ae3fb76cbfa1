import LightBridge.Proofs.Change.WriteBack

/-!
# What a request can ask for

Arguments of setters come as they are, and what is written lies in the range that a bridge accepts.
So does every field of every request: taking fields out changes no value, and the power setting that
a commit adds is a truth value like any other.
-/

namespace LightBridge

open Fields (Distinct)

theorem Number.int64?_ofNat {n : Nat} (hn : n < 0x8000000000000000)
    (h : n < 0x10000000000000000) : (ofNat n h).int64? = some (n : Int) := by
  have hlt : (n : Int) < 0x8000000000000000 := by omega
  simp only [ofNat, int64?, hlt, if_true]

namespace Setter

variable {low high i : Int} {v : Json} {field : String × Json}

/-- A whole number between two bounds. -/
def Between (low high : Int) (v : Json) : Prop := ∃ i, v.int64? = some i ∧ low ≤ i ∧ i ≤ high

/-- A double between two bounds, or null for what is not a number. -/
def CoordinateBetween (low high : Double) (v : Json) : Prop :=
  v = .null ∨ ∃ d, v = .number (.double d) ∧ low.signed ≤ d.signed ∧ d.signed ≤ high.signed

/-- A pair of coordinates between two bounds. -/
def PairBetween (low high : Double) (v : Json) : Prop :=
  ∃ x y, v = .array [x, y] ∧ CoordinateBetween low high x ∧ CoordinateBetween low high y

/-- A field that a bridge accepts: one of the keys that can be set, with a value in its range. The
transition time that a bridge uses anyway is not sent. -/
def InRange (field : String × Json) : Prop :=
  match field.1 with
  | "on" => ∃ b, field.2 = .bool b
  | "bri" | "sat" => Between 0 254 field.2
  | "hue" => Between 0 65535 field.2
  | "ct" => Between 153 500 field.2
  | "xy" => PairBetween (.zero false) .unit field.2
  | "bri_inc" | "sat_inc" => Between (-254) 254 field.2
  | "hue_inc" | "ct_inc" => Between (-65534) 65534 field.2
  | "xy_inc" => PairBetween (.half true) (.half false) field.2
  | "transitiontime" => Between 0 65535 field.2 ∧ field.2.int64? ≠ some 4
  | "effect" => field.2 = .string "colorloop" ∨ field.2 = .string "none"
  | "alert" => field.2 = .string "select" ∨ field.2 = .string "lselect" ∨ field.2 = .string "none"
  | _ => False

/-! ## Arguments moved into a range -/

theorem int64?_word (n : UInt16) : (word n).int64? = some (n.toNat : Int) := by
  have hword : n.toNat < 65536 := n.toNat_lt
  show (Number.ofUInt16 n).int64? = _
  exact Number.int64?_ofNat (by omega) _

theorem between_word (n : UInt16) : Between 0 65535 (word n) := by
  have hword : n.toNat < 65536 := n.toNat_lt
  exact ⟨n.toNat, int64?_word n, by omega, by omega⟩

theorem toNat_level_le (n : UInt8) : (min n maxLevel).toNat ≤ 254 := by
  show (if n ≤ maxLevel then n else maxLevel).toNat ≤ 254
  split
  · next h => exact UInt8.le_iff_toNat_le.mp h
  · exact Nat.le_refl 254

theorem between_level (n : UInt8) : Between 0 254 (level n) := by
  have hle := toNat_level_le n
  refine ⟨(min n maxLevel).toNat, ?_, by omega, by omega⟩
  show (Number.ofUInt8 (min n maxLevel)).int64? = _
  exact Number.int64?_ofNat (by omega) _

theorem between_mired (n : UInt16) : Between 153 500 (word (max 153 (min n 500))) := by
  have hmin : (min n 500).toNat ≤ 500 := by
    show (if n ≤ 500 then n else 500).toNat ≤ 500
    split
    · next h => exact UInt16.le_iff_toNat_le.mp h
    · exact Nat.le_refl 500
  have hmax : 153 ≤ (max 153 (min n 500)).toNat ∧ (max 153 (min n 500)).toNat ≤ 500 := by
    show 153 ≤ (if 153 ≤ min n 500 then min n 500 else 153).toNat ∧
      (if 153 ≤ min n 500 then min n 500 else 153).toNat ≤ 500
    split
    · next h => exact ⟨UInt16.le_iff_toNat_le.mp h, hmin⟩
    · exact ⟨Nat.le_refl 153, by decide⟩
  exact ⟨_, int64?_word _, by omega, by omega⟩

theorem toInt_clampBy_mem {bound : Int32} (hbound : (-bound).toInt ≤ bound.toInt) (n : Int32) :
    (-bound).toInt ≤ (clampBy bound n).toInt ∧ (clampBy bound n).toInt ≤ bound.toInt := by
  have hmin : (min n bound).toInt ≤ bound.toInt := by
    show (if n ≤ bound then n else bound).toInt ≤ bound.toInt
    split
    · next h => exact Int32.le_iff_toInt_le.mp h
    · exact Int.le_refl _
  show (-bound).toInt ≤ (if -bound ≤ min n bound then min n bound else -bound).toInt ∧
    (if -bound ≤ min n bound then min n bound else -bound).toInt ≤ bound.toInt
  split
  · next h => exact ⟨Int32.le_iff_toInt_le.mp h, hmin⟩
  · exact ⟨Int.le_refl _, hbound⟩

theorem between_amount {bound : Int32} (hbound : (-bound).toInt ≤ bound.toInt) (n : Int32) :
    Between (-bound).toInt bound.toInt (amount bound n) := by
  obtain ⟨hlow, hhigh⟩ := toInt_clampBy_mem hbound n
  refine ⟨(clampBy bound n).toInt, ?_, hlow, hhigh⟩
  have hlt : (clampBy bound n).toInt < 0x8000000000000000 := by
    have hword := (clampBy bound n).toInt_lt
    omega
  show (Number.ofInt32 (clampBy bound n)).int64? = _
  simp only [Number.ofInt32, Number.int64?, hlt, if_true]

theorem coordinateBetween {low high : Double} (hle : low.signed ≤ high.signed)
    (x : Double.Extended) : CoordinateBetween low high (coordinate low high x) := by
  unfold coordinate
  cases x.toSingle with
  | nan => exact .inl rfl
  | infinite negative =>
    refine .inr ⟨_, rfl, ?_⟩
    split
    · exact ⟨Int.le_refl _, hle⟩
    · exact ⟨hle, Int.le_refl _⟩
  | finite d =>
    refine .inr ⟨_, rfl, ?_⟩
    split
    · exact ⟨Int.le_refl _, hle⟩
    · next hlow =>
      split
      · exact ⟨hle, Int.le_refl _⟩
      · next hhigh => exact ⟨by omega, by omega⟩

theorem pairBetween_point (x y : Double.Extended) :
    PairBetween (.zero false) .unit (point x y) := by
  have hle : (Double.zero false).signed ≤ Double.unit.signed := by decide +kernel
  exact ⟨_, _, rfl, coordinateBetween hle x, coordinateBetween hle y⟩

theorem pairBetween_step (x y : Double.Extended) :
    PairBetween (.half true) (.half false) (step x y) := by
  have hle : (Double.half true).signed ≤ (Double.half false).signed := by decide +kernel
  exact ⟨_, _, rfl, coordinateBetween hle x, coordinateBetween hle y⟩

/-- Whatever a setter writes is in range. -/
theorem inRange_of_written (s : Setter) (hfield : field ∈ s.fields) : InRange field := by
  cases s with
  | transition tenths =>
    change field ∈ (if tenths = defaultTransition then _ else _) at hfield
    split at hfield
    · cases hfield
    · next hdefault =>
      rw [List.mem_singleton.mp hfield]
      refine ⟨between_word tenths, fun hfour => hdefault ?_⟩
      rw [int64?_word, Option.some.injEq] at hfour
      exact UInt16.toNat_inj.mp (Int.ofNat_inj.mp hfour)
  | hueSaturation hue saturation =>
    simp only [fields, List.mem_cons, List.not_mem_nil, or_false] at hfield
    rcases hfield with rfl | rfl
    · exact between_word hue
    · exact between_level saturation
  | on b =>
    rw [List.mem_singleton.mp hfield]
    exact ⟨b, rfl⟩
  | brightness n | saturation n =>
    rw [List.mem_singleton.mp hfield]
    exact between_level n
  | hue n =>
    rw [List.mem_singleton.mp hfield]
    exact between_word n
  | temperature n =>
    rw [List.mem_singleton.mp hfield]
    exact between_mired n
  | brightnessBy n | saturationBy n | hueBy n | temperatureBy n =>
    rw [List.mem_singleton.mp hfield]
    exact between_amount (by decide) n
  | xy x y =>
    rw [List.mem_singleton.mp hfield]
    exact pairBetween_point x y
  | xyBy x y =>
    rw [List.mem_singleton.mp hfield]
    exact pairBetween_step x y
  | colorLoop running =>
    rw [List.mem_singleton.mp hfield]
    cases running
    · exact .inr rfl
    · exact .inl rfl
  | flash =>
    rw [List.mem_singleton.mp hfield]
    exact .inl rfl
  | longFlash =>
    rw [List.mem_singleton.mp hfield]
    exact .inr (.inl rfl)
  | stopFlash =>
    rw [List.mem_singleton.mp hfield]
    exact .inr (.inr rfl)

/-- A request that a bridge can be asked for. -/
structure Sound (request : Fields) : Prop where
  distinct : Distinct request
  inRange : ∀ field ∈ request, InRange field

theorem Built.sound {request : Fields} (h : Built request) : Sound request := by
  refine ⟨h.distinct, fun field hfield => ?_⟩
  obtain ⟨s, hs⟩ := h.written field hfield
  exact inRange_of_written s hs

end Setter

namespace Change

/-- **Ranges.** Whatever is asked of a change, with any arguments, its request has every key once,
only keys that can be set, and values in their ranges; and so has the body of every request that its
commit sends. -/
theorem requests_within_ranges (channel : Channel) (path : String) (baseline : Json)
    (cache : Option Cache) (operations : List Operation) :
    let c := (start channel path baseline cache).performAll operations
    Setter.Sound c.request ∧
      ∀ w, ∃ sent, (after c.commit w).sent = w.sent ++ sent ∧ ∀ s ∈ sent, ∃ body,
        s.request = channel.compose .put path (.object body) ∧ Setter.Sound body := by
  intro c
  obtain ⟨request, hbuilt, hc⟩ :=
    performAll_built (c := start channel path baseline cache) Setter.built_nil operations
  have hc : c = { start channel path baseline cache with request } := hc
  have hrequest : Setter.Built c.request := by
    rw [hc]
    exact hbuilt
  refine ⟨hrequest.sound, fun w => ?_⟩
  obtain ⟨sent, hsent, hall⟩ := sent_by_commit c w
  refine ⟨sent, hsent, fun s hs => ?_⟩
  obtain ⟨body, hbody, hcompose⟩ := hall s hs
  refine ⟨body, ?_, (built_body hrequest hbody).sound⟩
  rw [hcompose, hc]
  rfl

end Change

end LightBridge
