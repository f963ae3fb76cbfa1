import LightBridge.Json.Number

/-!
JSON values.

The fields of an object keep the order in which they were first set. Setting a field that is there
replaces its value in place; removing a field moves the last field into its place; and two objects
are equal when they have the same fields in any order. A value is well formed when the keys of each
of its objects are distinct, as the reader and every operation here keep them.
-/

namespace LightBridge

/-- A JSON value. -/
inductive Json where
  | null
  | bool (value : Bool)
  | number (value : Number)
  | string (value : String)
  | array (items : List Json)
  | object (fields : List (String × Json))
deriving Inhabited

/-- Induction on a value: of an array and of an object, every value directly inside may be assumed
to meet the motive. -/
@[elab_as_elim, induction_eliminator]
theorem Json.induct {motive : Json → Prop} (null : motive .null)
    (bool : ∀ value, motive (.bool value)) (number : ∀ value, motive (.number value))
    (string : ∀ value, motive (.string value))
    (array : ∀ items, (∀ item ∈ items, motive item) → motive (.array items))
    (object : ∀ fields, (∀ field ∈ fields, motive field.2) → motive (.object fields)) (v : Json) :
    motive v :=
  @Json.rec motive (fun items => ∀ item ∈ items, motive item)
    (fun fields => ∀ field ∈ fields, motive field.2) (fun field => motive field.2)
    null bool number string array object
    (fun _ h => nomatch h) (fun _ _ hfirst hrest => List.forall_mem_cons.mpr ⟨hfirst, hrest⟩)
    (fun _ h => nomatch h) (fun _ _ hfirst hrest => List.forall_mem_cons.mpr ⟨hfirst, hrest⟩)
    (fun _ _ hvalue => hvalue) v

/-- The fields of an object, in order. -/
abbrev Fields := List (String × Json)

namespace Fields

/-- The value of a field. -/
def value? : Fields → String → Option Json
  | [], _ => none
  | (k, v) :: rest, key => if k = key then some v else value? rest key

/-- Whether a field is there. -/
def has (fields : Fields) (key : String) : Bool := (value? fields key).isSome

/-- The names of the fields, in order. -/
def keys (fields : Fields) : List String := fields.map (·.1)

/-- Sets a field: in its place when it is there, at the end otherwise. -/
def put : Fields → String → Json → Fields
  | [], key, value => [(key, value)]
  | (k, v) :: rest, key, value =>
    if k = key then (key, value) :: rest else (k, v) :: put rest key value

/-- Removes a field; the last field moves into its place. -/
def remove (fields : Fields) (key : String) : Fields :=
  match fields.getLast? with
  | none => []
  | some last =>
    if last.1 = key then fields.dropLast
    else if has fields.dropLast key then
      fields.dropLast.map fun field => if field.1 = key then last else field
    else fields

/-- Sets every field of `updates`, in order. -/
def putAll (fields updates : Fields) : Fields :=
  updates.foldl (fun acc field => put acc field.1 field.2) fields

/-- The keys are distinct. -/
def Distinct (fields : Fields) : Prop := (keys fields).Nodup

@[simp] theorem value?_nil (key : String) : value? [] key = none := rfl

theorem value?_cons (k : String) (v : Json) (rest : Fields) (key : String) :
    value? ((k, v) :: rest) key = if k = key then some v else value? rest key := rfl

@[simp] theorem value?_put_self (fields : Fields) (key : String) (value : Json) :
    value? (put fields key value) key = some value := by
  induction fields with
  | nil => simp [put, value?]
  | cons field rest ih =>
    obtain ⟨k, v⟩ := field
    by_cases h : k = key <;> simp [put, value?, h, ih]

theorem value?_put_of_ne (fields : Fields) {key other : String} (value : Json) (h : other ≠ key) :
    value? (put fields key value) other = value? fields other := by
  induction fields with
  | nil => simp [put, value?, Ne.symm h]
  | cons field rest ih =>
    obtain ⟨k, v⟩ := field
    by_cases hk : k = key
    · subst hk
      simp [put, value?, Ne.symm h]
    · simp [put, value?, hk, ih]

theorem value?_put (fields : Fields) (key other : String) (value : Json) :
    value? (put fields key value) other =
      if other = key then some value else value? fields other := by
  split
  · next h => rw [h, value?_put_self]
  · next h => exact value?_put_of_ne fields value h

theorem value?_eq_none_iff (fields : Fields) (key : String) :
    value? fields key = none ↔ key ∉ keys fields := by
  induction fields with
  | nil => simp [keys]
  | cons field rest ih =>
    obtain ⟨k, v⟩ := field
    by_cases h : k = key
    · simp [value?, keys, h]
    · simpa [value?, keys, h, Ne.symm h] using ih

theorem keys_put (fields : Fields) (key : String) (value : Json) :
    keys (put fields key value) =
      if key ∈ keys fields then keys fields else keys fields ++ [key] := by
  induction fields with
  | nil => simp [put, keys]
  | cons field rest ih =>
    obtain ⟨k, v⟩ := field
    by_cases h : k = key
    · simp [put, keys, h]
    · have hm : (key ∈ keys ((k, v) :: rest)) ↔ key ∈ keys rest := by
        simp [keys, Ne.symm h]
      simp only [put, h, if_false]
      by_cases hr : key ∈ keys rest
      · rw [if_pos (hm.mpr hr)]
        rw [if_pos hr] at ih
        simp [keys] at ih ⊢
        exact ih
      · rw [if_neg (fun hh => hr (hm.mp hh))]
        rw [if_neg hr] at ih
        simp [keys] at ih ⊢
        exact ih

theorem Distinct.put {fields : Fields} (h : Distinct fields) (key : String) (value : Json) :
    Distinct (put fields key value) := by
  unfold Distinct
  rw [keys_put]
  split
  · exact h
  · next hk =>
    refine List.nodup_append.mpr ⟨h, by simp, ?_⟩
    intro a ha b hb
    rw [List.mem_singleton] at hb
    subst hb
    exact fun hab => hk (hab ▸ ha)

end Fields

namespace Json

/-- The text of a string value. -/
def string? : Json → Option String
  | .string s => some s
  | _ => none

/-- The truth value of a boolean. -/
def bool? : Json → Option Bool
  | .bool b => some b
  | _ => none

/-- The fields of an object. -/
def object? : Json → Option Fields
  | .object fields => some fields
  | _ => none

/-- The items of an array. -/
def array? : Json → Option (List Json)
  | .array items => some items
  | _ => none

/-- The integer of a number in the signed 64-bit range. -/
def int64? : Json → Option Int
  | .number n => n.int64?
  | _ => none

/-- The integer of a number that is not negative. -/
def nat64? : Json → Option Nat
  | .number n => n.nat64?
  | _ => none

/-- The value of a field; a value that is no object has none. -/
def get? (v : Json) (key : String) : Option Json :=
  match v with
  | .object fields => Fields.value? fields key
  | _ => none

/-- The value reached by following field names from outside to inside. -/
def at? (v : Json) : List String → Option Json
  | [] => some v
  | key :: rest => (v.get? key).bind (·.at? rest)

/-- The first item of an array. -/
def first? : Json → Option Json
  | .array (item :: _) => some item
  | _ => none

/-- The text reached by following field names, or the empty text. -/
def textAt (v : Json) (path : List String) : String :=
  ((v.at? path).bind string?).getD ""

/-- The truth value reached by following field names, or false. -/
def flagAt (v : Json) (path : List String) : Bool :=
  ((v.at? path).bind bool?).getD false

/-- The number of a double argument; infinities and non-numbers become null. -/
def ofExtended : Double.Extended → Json
  | .finite d => .number (.double d)
  | _ => .null

mutual

/-- Plain equality: objects are compared without regard to order, numbers by `Number.same`. -/
def same : Json → Json → Bool
  | .null, .null => true
  | .bool a, .bool b => a == b
  | .number a, .number b => a.same b
  | .string a, .string b => a == b
  | .array xs, .array ys => sameItems xs ys
  | .object xs, .object ys => xs.length == ys.length && sameFields xs ys
  | _, _ => false

/-- Equality of the items of two arrays, in order. -/
def sameItems : List Json → List Json → Bool
  | [], [] => true
  | x :: xs, y :: ys => x.same y && sameItems xs ys
  | _, _ => false

/-- Whether every field of `xs` is in `ys` with an equal value. -/
def sameFields : List (String × Json) → List (String × Json) → Bool
  | [], _ => true
  | (k, v) :: rest, ys =>
    (match Fields.value? ys k with
      | some w => v.same w
      | none => false) && sameFields rest ys

end

mutual

/-- Equality made tolerant: numbers, and numbers inside arrays, are compared by `Number.agrees`;
everything else, the inside of objects included, by plain equality. -/
def agrees : Json → Json → Bool
  | .number a, .number b => a.agrees b
  | .array xs, .array ys => agreeItems xs ys
  | a, b => a.same b

/-- Tolerant equality of the items of two arrays, in order. -/
def agreeItems : List Json → List Json → Bool
  | [], [] => true
  | x :: xs, y :: ys => x.agrees y && agreeItems xs ys
  | _, _ => false

end

mutual

/-- The keys of every object in the value are distinct. -/
def WellFormed : Json → Prop
  | .array items => wellFormedItems items
  | .object fields => Fields.Distinct fields ∧ wellFormedFields fields
  | _ => True

/-- Every item is well formed. -/
def wellFormedItems : List Json → Prop
  | [] => True
  | item :: rest => item.WellFormed ∧ wellFormedItems rest

/-- The value of every field is well formed. -/
def wellFormedFields : List (String × Json) → Prop
  | [] => True
  | (_, v) :: rest => v.WellFormed ∧ wellFormedFields rest

end

@[simp] theorem get?_object (fields : Fields) (key : String) :
    (Json.object fields).get? key = Fields.value? fields key := rfl

@[simp] theorem at?_nil (v : Json) : v.at? [] = some v := rfl

theorem at?_cons (v : Json) (key : String) (rest : List String) :
    v.at? (key :: rest) = (v.get? key).bind (·.at? rest) := rfl

theorem first?_eq_some_iff {v item : Json} :
    v.first? = some item ↔ ∃ rest, v = .array (item :: rest) := by
  constructor
  · intro h
    unfold first? at h
    split at h
    · cases h
      exact ⟨_, rfl⟩
    · cases h
  · rintro ⟨rest, rfl⟩
    rfl

end Json

end LightBridge
