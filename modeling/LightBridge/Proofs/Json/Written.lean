import Mathlib.Data.List.TakeWhile
import LightBridge.Json.Printer
import LightBridge.Json.Reader

/-!
# What is written reads back

Strings with any characters and whole numbers of at most 64 bits read back from what they are
written as. Each reader is told by what it does with the written form and whatever may follow it. A string ends
with its quote, so anything may follow; a number goes on as long as there are digits, a point or an
exponent, so what follows it must begin with none of these.
-/

namespace LightBridge

namespace Numeral

theorem exists_digits_eq_cons (n : Nat) : ∃ d ds, digits n = d :: ds ∧ d.isDigit = true := by
  cases h : digits n with
  | nil => exact absurd h (digits_ne_nil n)
  | cons d ds => exact ⟨d, ds, rfl, isDigit_of_mem_digits (h ▸ List.mem_cons_self)⟩

theorem digits_eq_zero_cons {n : Nat} {rest : List Char} (h : digits n = '0' :: rest) : n = 0 := by
  induction n using Nat.strongRecOn generalizing rest with
  | ind n ih =>
    by_cases hn : n < 10
    · rw [digits, Nat.toDigits_of_lt_base hn] at h
      exact Nat.digitChar_eq_zero.mp (List.head_eq_of_cons_eq h)
    · -- The first digit is the one of the number without its last digit.
      rw [digits, Nat.toDigits_of_base_le (by decide) (Nat.le_of_not_lt hn)] at h
      obtain ⟨d, ds, hd, -⟩ := exists_digits_eq_cons (n / 10)
      rw [show Nat.toDigits 10 (n / 10) = d :: ds from hd] at h
      have := ih (n / 10) (by omega) (List.head_eq_of_cons_eq h ▸ hd)
      omega

end Numeral

namespace Json.Reader

variable {size : Nat} {rest : List Char}

/-! ## White space -/

theorem skipSpace_cons {c : Char} (h : isSpace c = false) : skipSpace (c :: rest) = c :: rest :=
  List.dropWhile_cons_of_neg (by simp [h])

theorem skipSpace_space : skipSpace (' ' :: rest) = skipSpace rest :=
  List.dropWhile_cons_of_pos (by decide)

/-! ## Strings -/

theorem hexQuad_control {n : Nat} (h : n < 32) :
    hexQuad ('0' :: '0' :: hexDigit (n / 16) :: hexDigit (n % 16) :: rest) = .ok (n, rest) := by
  have hread : ∀ n : Fin 32,
      Numeral.readHex? ['0', '0', hexDigit (n / 16), hexDigit (n % 16)] = some n.val := by decide
  rw [hexQuad, hread ⟨n, h⟩]

theorem unicodeEscape_control {c : Char} (h : c.toNat < 32) :
    unicodeEscape ('0' :: '0' :: hexDigit (c.toNat / 16) :: hexDigit (c.toNat % 16) :: rest) =
      .ok (c, rest) := by
  have hlow : isLowSurrogate c.toNat = false := by
    simp only [isLowSurrogate, Bool.and_eq_false_iff, decide_eq_false_iff_not]
    omega
  have hhigh : isHighSurrogate c.toNat = false := by
    simp only [isHighSurrogate, Bool.and_eq_false_iff, decide_eq_false_iff_not]
    omega
  rw [unicodeEscape, hexQuad_control h]
  simp only [bind, Except.bind, hlow, hhigh, Bool.false_eq_true, if_false, Char.ofNat_toNat]
  rfl

/-- A character is read from what it is written as. -/
theorem stringTail_escapeChar (fuel : Nat) (seen : List Char) (c : Char) :
    stringTail (fuel + 1) seen (escapeChar c ++ rest) = stringTail fuel (c :: seen) rest := by
  unfold escapeChar
  split
  case h_8 _ hquote hslash _ _ _ _ _ =>
    split
    · next hcontrol =>
      change (unicodeEscape ('0' :: '0' :: hexDigit (c.toNat / 16) :: hexDigit (c.toNat % 16) :: rest)
        >>= _) = _
      rw [unicodeEscape_control hcontrol]
      rfl
    · next hcontrol =>
      rw [List.singleton_append, stringTail, if_neg hcontrol]
      · exact hquote
      · exact fun h => (hslash h).elim
  -- The characters with a form of their own.
  all_goals rfl

theorem stringTail_render (cs seen : List Char) (fuel : Nat) (h : cs.length < fuel) :
    stringTail fuel seen (cs.flatMap escapeChar ++ '"' :: rest) =
      .ok (String.ofList (seen.reverse ++ cs), rest) := by
  induction cs generalizing seen fuel with
  | nil =>
    obtain ⟨fuel, rfl⟩ := Nat.exists_eq_add_of_lt h
    simp only [List.length_nil, Nat.zero_add, List.flatMap_nil, List.nil_append, List.append_nil]
    rfl
  | cons c cs ih =>
    obtain ⟨fuel, rfl⟩ : ∃ n, fuel = n + 1 := ⟨fuel - 1, by omega⟩
    rw [List.flatMap_cons, List.append_assoc, stringTail_escapeChar,
      ih (c :: seen) fuel (by simpa using h), List.reverse_cons, List.append_assoc,
      List.singleton_append]

theorem escapeChar_ne_nil (c : Char) : escapeChar c ≠ [] := by
  unfold escapeChar
  split
  case h_8 => split <;> exact List.cons_ne_nil _ _
  all_goals exact List.cons_ne_nil _ _

/-- A string is no longer than what it is written as. -/
theorem length_le_flatMap_escapeChar (cs : List Char) :
    cs.length ≤ (cs.flatMap escapeChar).length := by
  induction cs with
  | nil => exact Nat.le_refl 0
  | cons c cs ih =>
    have := List.length_pos_iff.mpr (escapeChar_ne_nil c)
    rw [List.flatMap_cons, List.length_append, List.length_cons]
    omega

/-- The body of a string is read from what it is written as, in a text that has room for it. -/
theorem stringBody_render (s : String)
    (h : (s.toList.flatMap escapeChar ++ '"' :: rest).length ≤ size) :
    stringBody size (s.toList.flatMap escapeChar ++ '"' :: rest) = .ok (s, rest) := by
  have hlength := length_le_flatMap_escapeChar s.toList
  rw [List.length_append] at h
  rw [stringBody, stringTail_render _ _ _ (by omega), List.reverse_nil, List.nil_append,
    String.ofList_toList]

theorem scalar_renderString (s : String) (h : (renderString s ++ rest).length ≤ size) :
    scalar size (renderString s ++ rest) = .ok (.string s, rest) := by
  have hshape : renderString s ++ rest = '"' :: (s.toList.flatMap escapeChar ++ '"' :: rest) := by
    simp [renderString]
  rw [hshape] at h ⊢
  rw [scalar, stringBody_render s (Nat.le_of_succ_le h)]
  rfl

/-! ## Whole numbers -/

/-- What may follow a whole number. -/
def EndsNumber (rest : List Char) : Prop :=
  ∀ c, rest.head? = some c → c.isDigit = false ∧ c ≠ '.' ∧ c ≠ 'e' ∧ c ≠ 'E'

theorem accumulate_of_lt (ds : List Char) (n : Nat)
    (h : Nat.ofDigitChars 10 ds n < 0x10000000000000000) :
    accumulate n ds = (Nat.ofDigitChars 10 ds n, []) := by
  induction ds generalizing n with
  | nil => rfl
  | cons d ds ih =>
    have hnext : Nat.ofDigitChars 10 (d :: ds) n =
        Nat.ofDigitChars 10 ds (n * 10 + (d.toNat - '0'.toNat)) := by
      rw [Nat.ofDigitChars_cons, Nat.mul_comm]
    rw [hnext] at h ⊢
    -- the number grows with every digit, so it is in range from the start if it is in the end
    have hle : n * 10 + (d.toNat - '0'.toNat) ≤
        Nat.ofDigitChars 10 ds (n * 10 + (d.toNat - '0'.toNat)) := by
      rw [Nat.ofDigitChars_eq_ofDigitChars_zero]
      exact Nat.le_trans (Nat.le_mul_of_pos_left _ (Nat.pow_pos (by decide))) (Nat.le_add_right _ _)
    rw [accumulate]
    simp only [if_pos (Nat.lt_of_le_of_lt hle h)]
    exact ih _ h

theorem wholePart_digits (n : Nat) (hrest : EndsNumber rest) :
    wholePart (Numeral.digits n ++ rest) = .ok (Numeral.digits n, rest) := by
  have hdigit (c : Char) (hc : c ∈ Numeral.digits n) : c.isDigit = true :=
    Numeral.isDigit_of_mem_digits hc
  have htail : rest.takeWhile Char.isDigit = [] ∧ rest.dropWhile Char.isDigit = rest := by
    cases rest with
    | nil => exact ⟨rfl, rfl⟩
    | cons c cs => simp [(hrest c rfl).1]
  obtain ⟨d, ds, hds, hd⟩ := Numeral.exists_digits_eq_cons n
  rw [hds] at hdigit ⊢
  by_cases hzero : d = '0'
  · -- The only number whose digits begin with a zero is written as one digit.
    subst hzero
    obtain rfl := Numeral.digits_eq_zero_cons hds
    obtain rfl : ds = [] := (List.cons.inj hds).2.symm
    have hhead : rest.head?.any Char.isDigit = false := by
      cases rest with
      | nil => rfl
      | cons c cs => exact (hrest c rfl).1
    rw [List.singleton_append, wholePart, hhead]
    rfl
  · have hsome : wholePart ((d :: ds) ++ rest) = someDigits ((d :: ds) ++ rest) := by
      rw [List.cons_append, wholePart]
      exact fun _ h => hzero (List.head_eq_of_cons_eq h)
    rw [hsome, List.cons_append, someDigits]
    simp only [hd, if_true]
    rw [← List.cons_append, List.takeWhile_append_of_pos hdigit, List.dropWhile_append_of_pos hdigit,
      htail.1, htail.2, List.append_nil]

theorem fractionPart_of_endsNumber (hrest : EndsNumber rest) : fractionPart rest = .ok (none, rest) := by
  unfold fractionPart
  split
  · next tail => exact absurd rfl (hrest '.' rfl).2.1
  · rfl

theorem exponentPart_of_endsNumber (hrest : EndsNumber rest) : exponentPart rest = .ok (none, rest) := by
  unfold exponentPart
  split
  · next c tail =>
    obtain ⟨-, -, he, hE⟩ := hrest c rfl
    rw [if_neg (by simp [he, hE])]
  · rfl

theorem numberText_digits (n : Nat) (hrest : EndsNumber rest) :
    numberText (Numeral.digits n ++ rest) = .ok (⟨false, Numeral.digits n, [], 0, true⟩, rest) := by
  have hsign : numberText (Numeral.digits n ++ rest) =
      unsignedText false (Numeral.digits n ++ rest) := by
    unfold numberText
    split
    · next tail h =>
      obtain ⟨d, ds, hds, hd⟩ := Numeral.exists_digits_eq_cons n
      rw [hds] at h
      rw [List.head_eq_of_cons_eq h] at hd
      exact absurd hd (by decide)
    · rfl
  rw [hsign, unsignedText, wholePart_digits n hrest]
  simp only [bind, Except.bind, fractionPart_of_endsNumber hrest, exponentPart_of_endsNumber hrest]
  rfl

/-- A whole number is read from its digits. -/
theorem number_digits {n : Nat} (h : n < 0x10000000000000000) (hrest : EndsNumber rest) :
    number (Numeral.digits n ++ rest) = .ok (.ofNat n h, rest) := by
  have hsum : Nat.ofDigitChars 10 (Numeral.digits n) 0 = n := Nat.ofDigitChars_ten_toDigits
  have hvalue : NumberText.value? ⟨false, Numeral.digits n, [], 0, true⟩ = some (.ofNat n h) := by
    have hrange : Number.ofInt? (n : Int) = some (.ofNat n h) := dif_pos ⟨by omega, by omega⟩
    simp only [NumberText.value?, accumulate_of_lt _ _ (hsum.symm ▸ h), hsum, List.isEmpty_nil,
      Bool.and_self, Bool.false_and, Bool.false_eq_true, if_true, if_false, hrange]
  rw [number, numberText_digits n hrest]
  simp only [bind, Except.bind, hvalue]
  rfl

theorem scalar_digits {n : Nat} (h : n < 0x10000000000000000) (hrest : EndsNumber rest) :
    scalar size (Numeral.digits n ++ rest) = .ok (.number (.ofNat n h), rest) := by
  have hnumber := number_digits h hrest
  obtain ⟨d, ds, hds, hd⟩ := Numeral.exists_digits_eq_cons n
  have hother (c : Char) (hc : c.isDigit = false) (heq : d = c) : False := by
    rw [heq, hc] at hd
    exact absurd hd (by decide)
  rw [hds, List.cons_append] at hnumber ⊢
  rw [scalar, hnumber, if_pos (by rw [hd, Bool.or_true])]
  · rfl
  all_goals exact hother _ (by decide)

end Json.Reader

end LightBridge
