/-!
Slashes and leading parts of addresses.

An address of a resource is written without a slash at its end before anything is appended to
it, and what follows a known beginning is cut out literally.
-/

namespace LightBridge.Text

/-- The characters of `cs` without the slashes at the end. -/
def dropTrailingSlashes (cs : List Char) : List Char :=
  (cs.reverse.dropWhile (· == '/')).reverse

/-- `s` without the slashes at its end: `"/lights//"` becomes `"/lights"` and `"/"` becomes `""`. -/
def trimSlashes (s : String) : String :=
  String.ofList (dropTrailingSlashes s.toList)

/-- Whether `s` begins with a slash. -/
def startsWithSlash (s : String) : Bool :=
  s.toList.head? == some '/'

/-- The characters that follow `start`, or nothing when they do not begin with it. -/
def dropStart? : (start cs : List Char) → Option (List Char)
  | [], cs => some cs
  | _ :: _, [] => none
  | s :: start, c :: cs => if s = c then dropStart? start cs else none

/-- What follows `start` in `s`, or nothing when `s` does not begin with `start`. -/
def after? (start s : String) : Option String :=
  (dropStart? start.toList s.toList).map String.ofList

/-- Whether `s` ends with the text `tail`. -/
def endsWith (s tail : String) : Bool :=
  tail.toList.isSuffixOf s.toList

@[simp] theorem dropTrailingSlashes_nil : dropTrailingSlashes [] = [] := rfl

theorem dropTrailingSlashes_append_slash (cs : List Char) :
    dropTrailingSlashes (cs ++ ['/']) = dropTrailingSlashes cs := by
  simp [dropTrailingSlashes]

theorem dropTrailingSlashes_append {c : Char} (cs : List Char) (hc : c ≠ '/') :
    dropTrailingSlashes (cs ++ [c]) = cs ++ [c] := by
  simp [dropTrailingSlashes, hc]

theorem dropStart?_eq_some_iff {start cs rest : List Char} :
    dropStart? start cs = some rest ↔ cs = start ++ rest := by
  induction start generalizing cs with
  | nil => simp [dropStart?]
  | cons c start ih =>
    cases cs with
    | nil => simp [dropStart?]
    | cons d cs =>
      by_cases h : c = d
      · simp [dropStart?, h, ih]
      · simp [dropStart?, h, Ne.symm h]

theorem after?_eq_some_iff {start s rest : String} :
    after? start s = some rest ↔ s = start ++ rest := by
  rw [after?, Option.map_eq_some_iff]
  constructor
  · rintro ⟨cs, hdrop, rfl⟩
    apply String.toList_inj.mp
    rw [dropStart?_eq_some_iff.mp hdrop, String.toList_append, String.toList_ofList]
  · rintro rfl
    exact ⟨rest.toList, dropStart?_eq_some_iff.mpr String.toList_append, String.ofList_toList⟩

end LightBridge.Text
