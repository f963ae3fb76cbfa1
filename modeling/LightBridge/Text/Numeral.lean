/-!
Numbers as text.

Whole numbers are written in decimal, without leading zeros and with a minus sign when negative.
Reading takes one optional sign and at least one digit, and nothing else; leading zeros are allowed.
What is written reads back as the same number. Hexadecimal digits and decimal fractions are only
read.
-/

namespace LightBridge.Numeral

/-- The decimal digits of `n`, most significant first. -/
def digits (n : Nat) : List Char :=
  Nat.toDigits 10 n

/-- The decimal text of an integer. -/
def ofInt : Int → List Char
  | .ofNat n => digits n
  | .negSucc n => '-' :: digits (n + 1)

/-- The decimal text of a natural number. -/
def nat (n : Nat) : String := String.ofList (digits n)

/-- The decimal text of an integer. -/
def int (i : Int) : String := String.ofList (ofInt i)

/-- The number that a non-empty run of digits denotes. -/
def readDigits? (cs : List Char) : Option Nat :=
  if cs.isEmpty then none
  else if cs.all Char.isDigit then some (Nat.ofDigitChars 10 cs 0)
  else none

/-- Reads digits with an optional plus sign. -/
def readNat? : List Char → Option Nat
  | '+' :: rest => readDigits? rest
  | cs => readDigits? cs

/-- Reads digits with an optional sign. -/
def readInt? : List Char → Option Int
  | '-' :: rest => (readDigits? rest).map fun n => -(n : Int)
  | cs => (readNat? cs).map fun n => (n : Int)

/-- The value of a hexadecimal digit. -/
def hexValue? (c : Char) : Option Nat :=
  if '0' ≤ c && c ≤ '9' then some (c.toNat - '0'.toNat)
  else if 'a' ≤ c && c ≤ 'f' then some (c.toNat - 'a'.toNat + 10)
  else if 'A' ≤ c && c ≤ 'F' then some (c.toNat - 'A'.toNat + 10)
  else none

/-- The number that hexadecimal digits denote. -/
def readHex? (cs : List Char) : Option Nat :=
  cs.foldlM (fun n c => (hexValue? c).map fun d => n * 16 + d) 0

/-- Whether `cs` is empty, or the letter `e` and a whole number. -/
def isExponent : List Char → Bool
  | [] => true
  | c :: cs => (c == 'e' || c == 'E') && (readInt? cs).isSome

/-- Whether `cs` is digits, possibly with a point before, among or after them, and possibly an
exponent. -/
def isUnsignedDecimal (cs : List Char) : Bool :=
  let whole := cs.takeWhile Char.isDigit
  match cs.dropWhile Char.isDigit with
  | '.' :: rest =>
    !(whole.isEmpty && (rest.takeWhile Char.isDigit).isEmpty) &&
      isExponent (rest.dropWhile Char.isDigit)
  | rest => !whole.isEmpty && isExponent rest

/-- Whether `cs` is a decimal number with an optional sign, or a name of an infinity or of no
number. -/
def isDecimal (cs : List Char) : Bool :=
  let unsigned := match cs with
    | '+' :: rest => rest
    | '-' :: rest => rest
    | cs => cs
  isUnsignedDecimal unsigned ||
    ["inf", "infinity", "nan"].contains (String.ofList (unsigned.map Char.toLower))

theorem digits_ne_nil (n : Nat) : digits n ≠ [] := Nat.toDigits_ne_nil

theorem isDigit_of_mem_digits {n : Nat} {c : Char} (h : c ∈ digits n) : c.isDigit = true :=
  Nat.isDigit_of_mem_toDigits (by decide) (by decide) h

theorem slash_notMem_ofInt (i : Int) : '/' ∉ ofInt i := by
  have hdigits (n : Nat) : '/' ∉ digits n := fun h =>
    absurd (isDigit_of_mem_digits h) (by decide)
  cases i with
  | ofNat n => exact hdigits n
  | negSucc n =>
    rw [ofInt, List.mem_cons]
    rintro (h | h)
    · exact absurd h (by decide)
    · exact hdigits (n + 1) h

theorem readDigits?_eq_some_iff {ds : List Char} {n : Nat} :
    readDigits? ds = some n ↔
      ds ≠ [] ∧ (∀ c ∈ ds, c.isDigit = true) ∧ Nat.ofDigitChars 10 ds 0 = n := by
  unfold readDigits?
  cases ds with
  | nil => simp
  | cons d ds => simp [and_assoc]

theorem readDigits?_digits (n : Nat) : readDigits? (digits n) = some n :=
  readDigits?_eq_some_iff.mpr ⟨digits_ne_nil n, fun _ hc => isDigit_of_mem_digits hc,
    Nat.ofDigitChars_toDigits (by decide) (by decide)⟩

/-- What is read as a number: digits, after a plus sign or after nothing. -/
theorem readNat?_eq_some_iff {cs : List Char} {n : Nat} :
    readNat? cs = some n ↔ ∃ sign ds, cs = sign ++ ds ∧ (sign = [] ∨ sign = ['+']) ∧ ds ≠ [] ∧
      (∀ c ∈ ds, c.isDigit = true) ∧ Nat.ofDigitChars 10 ds 0 = n := by
  constructor
  · intro h
    unfold readNat? at h
    split at h
    · exact ⟨['+'], _, rfl, .inr rfl, readDigits?_eq_some_iff.mp h⟩
    · exact ⟨[], _, rfl, .inl rfl, readDigits?_eq_some_iff.mp h⟩
  · rintro ⟨sign, ds, rfl, rfl | rfl, hds⟩
    · -- digits alone are read as they are, since none of them is a plus sign
      rw [List.nil_append, readNat?]
      · exact readDigits?_eq_some_iff.mpr hds
      · rintro rest rfl
        exact absurd (hds.2.1 '+' List.mem_cons_self) (by decide)
    · exact readDigits?_eq_some_iff.mpr hds

private theorem head_digits_ne {n : Nat} {c : Char} (hc : c.isDigit = false) (rest : List Char) :
    digits n ≠ c :: rest := by
  intro h
  have := isDigit_of_mem_digits (n := n) (c := c) (by rw [h]; exact List.mem_cons_self)
  simp [hc] at this

theorem readNat?_digits (n : Nat) : readNat? (digits n) = some n := by
  unfold readNat?
  split
  · next rest h => exact absurd h (head_digits_ne (by decide) rest)
  · exact readDigits?_digits n

theorem readInt?_minus (cs : List Char) :
    readInt? ('-' :: cs) = (readDigits? cs).map fun n : Nat => -(n : Int) := by
  rw [readInt?]
  cases readDigits? cs <;> rfl

theorem readInt?_of_ne {cs : List Char} (h : ∀ rest, cs ≠ '-' :: rest) :
    readInt? cs = (readNat? cs).map fun n : Nat => (n : Int) := by
  rw [readInt?]
  · cases readNat? cs <;> rfl
  · exact h

theorem readInt?_ofInt (i : Int) : readInt? (ofInt i) = some i := by
  cases i with
  | ofNat n =>
    rw [ofInt, readInt?_of_ne (head_digits_ne (by decide)), readNat?_digits]
    rfl
  | negSucc n =>
    rw [ofInt, readInt?_minus, readDigits?_digits, Int.negSucc_eq]
    rfl

end LightBridge.Numeral
