import LightBridge.Resource.LightIds

/-!
# What a reported list of lights says

A text denotes an integer when it consists of digits, alone or after one sign, and an item of a list
denotes an id when it is such a text or an integer, in the range of ids. Main statement: the ids that
are read are those of the items that denote one, in order, and a list that was written reads back as
it is.
-/

namespace LightBridge

namespace Numeral

/-- The texts that denote an integer. -/
inductive Denotes : List Char → Int → Prop
  | digits {ds : List Char} (hne : ds ≠ []) (hds : ∀ c ∈ ds, c.isDigit = true) :
    Denotes ds (Nat.ofDigitChars 10 ds 0)
  | plus {ds : List Char} (hne : ds ≠ []) (hds : ∀ c ∈ ds, c.isDigit = true) :
    Denotes ('+' :: ds) (Nat.ofDigitChars 10 ds 0)
  | minus {ds : List Char} (hne : ds ≠ []) (hds : ∀ c ∈ ds, c.isDigit = true) :
    Denotes ('-' :: ds) (-Nat.ofDigitChars 10 ds 0)

/-- Reading finds the integer that a text denotes, and fails on every other text. -/
theorem readInt?_eq_some_iff {cs : List Char} {i : Int} :
    readInt? cs = some i ↔ Denotes cs i := by
  constructor
  · intro h
    by_cases hminus : ∃ rest, cs = '-' :: rest
    · obtain ⟨rest, rfl⟩ := hminus
      rw [readInt?_minus, Option.map_eq_some_iff] at h
      obtain ⟨n, hn, rfl⟩ := h
      obtain ⟨hne, hds, rfl⟩ := readDigits?_eq_some_iff.mp hn
      exact .minus hne hds
    · rw [readInt?_of_ne (not_exists.mp hminus), Option.map_eq_some_iff] at h
      obtain ⟨n, hn, rfl⟩ := h
      obtain ⟨sign, ds, rfl, rfl | rfl, hne, hds, rfl⟩ := readNat?_eq_some_iff.mp hn
      · exact .digits hne hds
      · exact .plus hne hds
  · intro h
    cases h with
    | digits hne hds =>
      -- none of the digits is a minus sign
      have hminus (rest : List Char) : cs ≠ '-' :: rest := by
        rintro rfl
        exact absurd (hds '-' List.mem_cons_self) (by decide)
      have hread : readNat? cs = some (Nat.ofDigitChars 10 cs 0) :=
        readNat?_eq_some_iff.mpr ⟨[], cs, rfl, .inl rfl, hne, hds, rfl⟩
      rw [readInt?_of_ne hminus, hread]
      rfl
    | @plus ds hne hds =>
      have hread : readNat? ('+' :: ds) = some (Nat.ofDigitChars 10 ds 0) :=
        readNat?_eq_some_iff.mpr ⟨['+'], ds, rfl, .inr rfl, hne, hds, rfl⟩
      rw [readInt?_of_ne (by simp), hread]
      rfl
    | minus hne hds =>
      rw [readInt?_minus, readDigits?_eq_some_iff.mpr ⟨hne, hds, rfl⟩]
      rfl

end Numeral

theorem readInt32?_eq_some_iff {s : String} {n : Int32} :
    readInt32? s = some n ↔ Numeral.Denotes s.toList n.toInt := by
  simp only [readInt32?, Option.bind_eq_some_iff, int32?_eq_some_iff, Numeral.readInt?_eq_some_iff,
    exists_eq_right]

namespace LightIds

variable {item : Json} {items : List Json} {id : Int32} {ids : List Int32}

/-- The items that denote an id: the texts and the integers of its value. -/
inductive Denotes : Json → Int32 → Prop
  | text {s : String} {id : Int32} (h : Numeral.Denotes s.toList id.toInt) : Denotes (.string s) id
  | number (id : Int32) : Denotes (.number (.ofInt32 id)) id

/-- An item is read as the id that it denotes, and skipped when it denotes none. -/
theorem ofItem?_eq_some_iff : ofItem? item = some id ↔ Denotes item id := by
  constructor
  · intro h
    unfold ofItem? at h
    split at h
    · exact .text (readInt32?_eq_some_iff.mp h)
    · next n =>
      obtain ⟨i, hi, hid⟩ := Option.bind_eq_some_iff.mp h
      rw [int32?_eq_some_iff] at hid
      cases n with
      | integer j hj =>
        obtain ⟨-, rfl⟩ := Option.ite_some_none_eq_some.mp hi
        subst hid
        exact .number id
      | double d => nomatch hi
    · nomatch h
  · intro h
    cases h with
    | text hs => exact readInt32?_eq_some_iff.mpr hs
    | number id =>
      have hsigned : (Number.ofInt32 id).int64? = some id.toInt :=
        if_pos (Int.lt_trans id.toInt_lt (by decide))
      rw [ofItem?, hsigned, Option.bind_some, int32?_toInt]

theorem ofItem?_eq_none_iff : ofItem? item = none ↔ ∀ id, ¬ Denotes item id := by
  simp only [Option.eq_none_iff_forall_ne_some, Ne, ofItem?_eq_some_iff]

/-- The ids that a list of items says: those that its items denote, in order, and nothing for an item
that denotes none. -/
inductive Lists : List Json → List Int32 → Prop
  | nil : Lists [] []
  | listed {item : Json} {items : List Json} {id : Int32} {ids : List Int32} (h : Denotes item id)
    (hrest : Lists items ids) : Lists (item :: items) (id :: ids)
  | skipped {item : Json} {items : List Json} {ids : List Int32} (h : ∀ id, ¬ Denotes item id)
    (hrest : Lists items ids) : Lists (item :: items) ids

theorem lists_ofJson (items : List Json) : Lists items (ofJson (.array items)) := by
  show Lists items (items.filterMap ofItem?)
  induction items with
  | nil => exact .nil
  | cons item rest ih =>
    cases hitem : ofItem? item with
    | none =>
      rw [List.filterMap_cons_none hitem]
      exact .skipped (ofItem?_eq_none_iff.mp hitem) ih
    | some id =>
      rw [List.filterMap_cons_some hitem]
      exact .listed (ofItem?_eq_some_iff.mp hitem) ih

theorem Lists.eq_ofJson (h : Lists items ids) : ofJson (.array items) = ids := by
  show items.filterMap ofItem? = ids
  induction h with
  | nil => rfl
  | listed hitem _ ih => rw [List.filterMap_cons_some (ofItem?_eq_some_iff.mpr hitem), ih]
  | skipped hitem _ ih => rw [List.filterMap_cons_none (ofItem?_eq_none_iff.mpr hitem), ih]

/-- The ids read from an array are those that its items denote, and no others. -/
theorem ofJson_array_eq_iff : ofJson (.array items) = ids ↔ Lists items ids :=
  ⟨fun h => h ▸ lists_ofJson items, Lists.eq_ofJson⟩

theorem reportedAt_key {fields : Fields} {key : String} {v : Json}
    (h : Fields.value? fields key = some v) : reportedAt (.object fields) [key] = ofJson v := by
  have hat : (Json.object fields).at? [key] = some v := by
    rw [Json.at?_cons, Json.get?_object, h, Option.bind_some, Json.at?_nil]
  rw [reportedAt, hat, Option.map_some, Option.getD_some]

/-- **Lists of light ids.** A written list of any ids reads back as it is from the object that holds
it, whatever else the object holds. From any array exactly the ids are read that its items denote, in
their order. And an id is read back from its own key. -/
theorem light_ids_read_back (fields : Fields) (key : String) :
    (∀ ids, Fields.value? fields key = some (toJson ids) →
      reportedAt (.object fields) [key] = ids) ∧
    (∀ items ids, Fields.value? fields key = some (.array items) →
      (reportedAt (.object fields) [key] = ids ↔ Lists items ids)) ∧
    ∀ id : Int32, ResourceId.ofKey? (ResourceId.key id) = some id := by
  refine ⟨fun ids hvalue => ?_, fun items ids hvalue => ?_, readInt32?_int32Text⟩
  · rw [reportedAt_key hvalue, ofJson_toJson]
  · rw [reportedAt_key hvalue, ofJson_array_eq_iff]

/-- A written list with both limits and with an id that comes twice, and an array in which texts with
signs and zeros, an integer, and items that denote no id are mixed. -/
theorem lights_read_from_mixed_list :
    let written : List Int32 := [-2147483648, 7, 7, 2147483647]
    let mixed : List Json := [.string "+7", .null, .string "-08", .string "2147483648", .string "x",
      .number (.integer 3 (by decide)), .number (.integer 2147483648 (by decide)), .string ""]
    let group : Fields := [("name", .string "Hall"), ("lights", toJson written),
      ("others", .array mixed)]
    Fields.value? group "lights" = some (toJson written) ∧
      Fields.value? group "others" = some (.array mixed) ∧
      reportedAt (.object group) ["lights"] = written ∧
      reportedAt (.object group) ["others"] = [7, -8, 3] ∧ Lists mixed [7, -8, 3] := by
  intro written mixed group
  obtain ⟨hwritten, -, -⟩ := light_ids_read_back group "lights"
  obtain ⟨-, hmixed, -⟩ := light_ids_read_back group "others"
  have hread : reportedAt (.object group) ["others"] = [7, -8, 3] := by decide
  exact ⟨rfl, rfl, hwritten written rfl, hread, (hmixed mixed _ rfl).mp hread⟩

end LightIds

end LightBridge
