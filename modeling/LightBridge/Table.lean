/-!
Finite tables.

A table holds at most one value for a key. Setting a key replaces its value and leaves every other
key alone; the order of the keys carries no meaning.
-/

namespace LightBridge

/-- A finite map as a list of its entries. -/
structure Table (κ α : Type) where
  entries : List (κ × α)
deriving Repr

namespace Table

variable {κ α : Type} [DecidableEq κ]

/-- The table without entries. -/
def empty : Table κ α := ⟨[]⟩

instance : Inhabited (Table κ α) := ⟨empty⟩

/-- The first value stored for a key in a list of entries. -/
def find? : List (κ × α) → κ → Option α
  | [], _ => none
  | (k, v) :: rest, key => if k = key then some v else find? rest key

/-- The value of a key. -/
def get? (t : Table κ α) (key : κ) : Option α := find? t.entries key

/-- The table without a key. -/
def erase (t : Table κ α) (key : κ) : Table κ α := ⟨t.entries.filter fun e => e.1 ≠ key⟩

/-- The table with a value for a key. -/
def set (t : Table κ α) (key : κ) (value : α) : Table κ α := ⟨(key, value) :: (t.erase key).entries⟩

/-- Whether a key has a value. -/
def has (t : Table κ α) (key : κ) : Bool := (t.get? key).isSome

/-- The values in the table. -/
def values (t : Table κ α) : List α := t.entries.map (·.2)

@[simp] theorem get?_empty (key : κ) : (empty : Table κ α).get? key = none := rfl

private theorem find?_filter (entries : List (κ × α)) (key other : κ) :
    find? (entries.filter fun e => e.1 ≠ key) other =
      if other = key then none else find? entries other := by
  induction entries with
  | nil => simp [find?]
  | cons e rest ih =>
    obtain ⟨k, v⟩ := e
    by_cases hk : k = key
    · subst hk
      rw [List.filter_cons_of_neg (by simp), ih, find?]
      by_cases ho : k = other
      · rw [if_pos ho.symm, if_pos ho.symm]
      · rw [if_neg ho]
    · rw [List.filter_cons_of_pos (by simpa using hk), find?, find?, ih]
      by_cases ho : k = other
      · subst ho; rw [if_pos rfl, if_neg hk, if_pos rfl]
      · rw [if_neg ho, if_neg ho]

theorem get?_erase (t : Table κ α) (key other : κ) :
    (t.erase key).get? other = if other = key then none else t.get? other :=
  find?_filter t.entries key other

@[simp] theorem get?_set_self (t : Table κ α) (key : κ) (value : α) :
    (t.set key value).get? key = some value := by
  simp [set, get?, find?]

theorem get?_set_of_ne (t : Table κ α) {key other : κ} (value : α) (h : other ≠ key) :
    (t.set key value).get? other = t.get? other := by
  have : (t.set key value).get? other = (t.erase key).get? other := by
    simp [set, get?, find?, Ne.symm h]
  rw [this, get?_erase, if_neg h]

theorem mem_values {t : Table κ α} {key : κ} {value : α} (h : t.get? key = some value) :
    value ∈ t.values := by
  obtain ⟨entries⟩ := t
  simp only [get?, values] at h ⊢
  induction entries with
  | nil => simp [find?] at h
  | cons e rest ih =>
    rw [find?] at h
    split at h
    · cases h
      exact List.mem_cons_self
    · exact List.mem_cons_of_mem _ (ih h)

theorem mem_values_erase {t : Table κ α} {key : κ} {value : α} (h : value ∈ (t.erase key).values) :
    value ∈ t.values := by
  obtain ⟨e, he, rfl⟩ := List.mem_map.mp h
  exact List.mem_map_of_mem (List.mem_filter.mp he).1

theorem mem_values_set {t : Table κ α} {key : κ} {value other : α}
    (h : other ∈ (t.set key value).values) : other = value ∨ other ∈ t.values := by
  rcases List.mem_cons.mp h with rfl | h
  · exact .inl rfl
  · exact .inr (mem_values_erase h)

/-- Every value in the table meets `P`. -/
def All (P : α → Prop) (t : Table κ α) : Prop := ∀ key value, t.get? key = some value → P value

variable {P : α → Prop} {t : Table κ α}

theorem All.empty : (empty : Table κ α).All P := fun _ _ h => nomatch h

theorem All.set (h : t.All P) (key : κ) {value : α} (hvalue : P value) :
    (t.set key value).All P := by
  intro other v hv
  by_cases ho : other = key
  · rw [ho, get?_set_self] at hv
    rwa [← Option.some.inj hv]
  · rw [get?_set_of_ne t value ho] at hv
    exact h other v hv

theorem All.erase (h : t.All P) (key : κ) : (t.erase key).All P := by
  intro other v hv
  rw [get?_erase] at hv
  by_cases ho : other = key
  · rw [if_pos ho] at hv
    nomatch hv
  · rw [if_neg ho] at hv
    exact h other v hv

theorem All.mono {Q : α → Prop} (h : t.All P) (hPQ : ∀ v, P v → Q v) : t.All Q :=
  fun key v hv => hPQ v (h key v hv)

end Table

end LightBridge
