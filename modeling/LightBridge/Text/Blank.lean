/-!
Blank characters and trimming.

A character is blank when it has the Unicode property `White_Space`. A reply that holds nothing
else counts as empty, and settings taken from the environment are trimmed of blanks on both sides.
-/

namespace LightBridge.Text

/-- The characters with the Unicode property `White_Space`. -/
def isBlank (c : Char) : Bool :=
  let n := c.toNat
  (9 ≤ n && n ≤ 13) || n == 32 || n == 0x85 || n == 0xA0 || n == 0x1680
    || (0x2000 ≤ n && n ≤ 0x200A) || n == 0x2028 || n == 0x2029 || n == 0x202F
    || n == 0x205F || n == 0x3000

/-- The characters of `cs` without the blanks on both sides. -/
def trimBlanks (cs : List Char) : List Char :=
  ((cs.dropWhile isBlank).reverse.dropWhile isBlank).reverse

/-- `s` without the blanks on both sides. -/
def trim (s : String) : String :=
  String.ofList (trimBlanks s.toList)

/-- Whether `s` holds nothing but blanks. -/
def isAllBlank (s : String) : Bool :=
  s.toList.all isBlank

theorem isBlank_of_isWhitespace {c : Char} (h : c.isWhitespace = true) : isBlank c = true := by
  simp only [Char.isWhitespace, Bool.or_eq_true, decide_eq_true_eq] at h
  rcases h with ((h | h) | h) | h <;> subst h <;> decide

private theorem dropWhile_isBlank_eq_nil (cs : List Char) :
    cs.dropWhile isBlank = [] ↔ cs.all isBlank = true := by
  induction cs with
  | nil => simp
  | cons c cs ih => cases h : isBlank c <;> simp_all

theorem trimBlanks_eq_nil_iff (cs : List Char) : trimBlanks cs = [] ↔ cs.all isBlank = true := by
  rw [trimBlanks, List.reverse_eq_nil_iff, dropWhile_isBlank_eq_nil, List.all_reverse,
    List.all_eq_true]
  constructor
  · intro h
    rw [← List.takeWhile_append_dropWhile (p := isBlank) (l := cs), List.all_append,
      List.all_takeWhile, List.all_eq_true.mpr h]
    rfl
  · intro h
    rw [(dropWhile_isBlank_eq_nil cs).mpr h]
    simp

end LightBridge.Text
