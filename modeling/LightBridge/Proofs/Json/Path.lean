import LightBridge.Json.Basic

/-!
# Replacing what a path leads to

A path of field names leads to one place of a value at most. Replacing what is there changes what
the path reads, and what its continuations read; other fields on the way stay as they are.
-/

namespace LightBridge.Json

variable {v old new : Json} {key other : String}

/-- The value with another one in the place that a path leads to; when there is no such place, the
value stays as it is. -/
def putAt (new : Json) : (path : List String) → Json → Json
  | [], _ => new
  | key :: rest, .object fields =>
    match Fields.value? fields key with
    | some value => .object (Fields.put fields key (putAt new rest value))
    | none => .object fields
  | _ :: _, v => v

/-! ## One field -/

theorem putAt_cons {fields : Fields} {value : Json} (h : Fields.value? fields key = some value)
    (rest : List String) :
    putAt new (key :: rest) (.object fields) =
      .object (Fields.put fields key (putAt new rest value)) := by
  rw [putAt, h]

theorem putAt_cons_of_none (h : v.get? key = none) (rest : List String) :
    putAt new (key :: rest) v = v := by
  cases v with
  | object fields =>
    rw [get?_object] at h
    rw [putAt, h]
  | _ => rfl

theorem exists_fields_of_get? (h : v.get? key = some old) :
    ∃ fields, v = .object fields ∧ Fields.value? fields key = some old := by
  cases v with
  | object fields => exact ⟨fields, rfl, h⟩
  | _ => nomatch h

theorem get?_putAt_self (h : v.get? key = some old) (rest : List String) :
    (putAt new (key :: rest) v).get? key = some (putAt new rest old) := by
  obtain ⟨fields, rfl, hvalue⟩ := exists_fields_of_get? h
  rw [putAt_cons hvalue, get?_object, Fields.value?_put_self]

theorem get?_putAt_of_ne (hne : other ≠ key) (rest : List String) (v : Json) :
    (putAt new (key :: rest) v).get? other = v.get? other := by
  cases h : v.get? key with
  | none => rw [putAt_cons_of_none h]
  | some old =>
    obtain ⟨fields, rfl, hvalue⟩ := exists_fields_of_get? h
    rw [putAt_cons hvalue, get?_object, get?_object, Fields.value?_put_of_ne _ _ hne]

/-! ## Paths -/

theorem at?_append (v : Json) (path rest : List String) :
    v.at? (path ++ rest) = (v.at? path).bind (·.at? rest) := by
  induction path generalizing v with
  | nil => rfl
  | cons key path ih =>
    rw [List.cons_append, at?_cons, at?_cons]
    cases v.get? key with
    | none => rfl
    | some u => exact ih u

/-- A change further inside is a change of what the path leads to. -/
theorem at?_putAt_append (path rest : List String) (h : v.at? path = some old) :
    (putAt new (path ++ rest) v).at? path = some (putAt new rest old) := by
  induction path generalizing v with
  | nil =>
    rw [at?_nil, Option.some.injEq] at h
    rw [List.nil_append, at?_nil, h]
  | cons key path ih =>
    rw [at?_cons, Option.bind_eq_some_iff] at h
    obtain ⟨u, hkey, hpath⟩ := h
    rw [List.cons_append, at?_cons, get?_putAt_self hkey, Option.bind_some]
    exact ih hpath

theorem at?_putAt_self (path : List String) (h : v.at? path = some old) :
    (putAt new path v).at? path = some new := by
  have hinside : (putAt new (path ++ []) v).at? path = some (putAt new [] old) :=
    at?_putAt_append path [] h
  rwa [List.append_nil] at hinside

/-- Putting a value further inside puts it into what the path leads to. -/
theorem putAt_append (path : List String) (rest : List String) (h : v.at? path = some old) :
    putAt new (path ++ rest) v = putAt (putAt new rest old) path v := by
  induction path generalizing v with
  | nil =>
    rw [at?_nil, Option.some.injEq] at h
    rw [List.nil_append, putAt, h]
  | cons key path ih =>
    rw [at?_cons, Option.bind_eq_some_iff] at h
    obtain ⟨u, hkey, hpath⟩ := h
    obtain ⟨fields, rfl, hvalue⟩ := exists_fields_of_get? hkey
    rw [List.cons_append, putAt_cons hvalue, putAt_cons hvalue, ih hpath]

/-- A place that neither contains the one that is filled nor lies in it keeps what it has. -/
theorem at?_putAt_beside {path p : List String} (hinside : ¬ path <+: p)
    (houtside : ¬ p <+: path) : (putAt new path v).at? p = v.at? p := by
  induction path generalizing v p with
  | nil => exact absurd List.nil_prefix hinside
  | cons key rest ih =>
    cases p with
    | nil => exact absurd List.nil_prefix houtside
    | cons first p =>
      rw [at?_cons, at?_cons]
      by_cases hkey : first = key
      · subst hkey
        rw [List.cons_prefix_cons, not_and] at hinside houtside
        cases hget : v.get? first with
        | none => rw [putAt_cons_of_none hget, hget]
        | some u =>
          rw [get?_putAt_self hget, Option.bind_some, Option.bind_some]
          exact ih (hinside rfl) (houtside rfl)
      · rw [get?_putAt_of_ne hkey]

end LightBridge.Json
