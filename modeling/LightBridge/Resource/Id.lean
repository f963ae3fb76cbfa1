import LightBridge.Json.Printer
import LightBridge.Text.Quoted

/-!
Ids of resources.

An id has a key, the field name under which a bridge reports the resource. Lights, groups,
schedules and sensors have whole numbers of 32 bits; their keys are read leniently, with a sign or
leading zeros, and written canonically. Scenes have non-empty texts.
-/

namespace LightBridge

/-- A type of ids. -/
class ResourceId (ι : Type) where
  /-- The canonical key of an id. -/
  key : ι → String
  /-- The id that a key denotes. -/
  ofKey? : String → Option ι
  /-- The id that stands for none. -/
  missing : ι
  /-- Whether the first id comes before the second one. -/
  before : ι → ι → Bool
  /-- How an id stands in a description. -/
  label : ι → String

/-- The 32-bit integer with the given value, when it is in range. -/
def int32? (i : Int) : Option Int32 :=
  if -0x80000000 ≤ i ∧ i < 0x80000000 then some (Int32.ofInt i) else none

/-- The decimal text of a 32-bit integer. -/
def int32Text (n : Int32) : String := Numeral.int n.toInt

/-- The 32-bit integer that a text denotes: an optional sign and digits. -/
def readInt32? (s : String) : Option Int32 := (Numeral.readInt? s.toList).bind int32?

instance : ResourceId Int32 where
  key := int32Text
  ofKey? := readInt32?
  missing := 0
  before a b := a < b
  label := int32Text

instance : ResourceId String where
  key := id
  ofKey? s := if s.isEmpty then none else some s
  missing := ""
  before a b := a < b
  label := Text.quote

namespace ResourceId

/-- The id in a token that may be a text or a number; a number is read from its text. -/
def ofToken? {ι : Type} [ResourceId ι] : Json → Option ι
  | .string key => ofKey? key
  | .number n => ofKey? (String.ofList n.text)
  | _ => none

end ResourceId

theorem int32?_toInt (n : Int32) : int32? n.toInt = some n := by
  have h : -0x80000000 ≤ n.toInt ∧ n.toInt < 0x80000000 := ⟨n.le_toInt, n.toInt_lt⟩
  rw [int32?, if_pos h, Int32.ofInt_toInt]

theorem int32?_eq_some_iff {i : Int} {n : Int32} : int32? i = some n ↔ i = n.toInt := by
  constructor
  · intro h
    unfold int32? at h
    split at h
    · next hrange =>
      rw [← Option.some.inj h, Int32.toInt_ofInt_of_le hrange.1 hrange.2]
    · cases h
  · rintro rfl
    exact int32?_toInt n

theorem readInt32?_int32Text (n : Int32) : readInt32? (int32Text n) = some n := by
  simp [readInt32?, int32Text, Numeral.int, Numeral.readInt?_ofInt, int32?_toInt]

end LightBridge
