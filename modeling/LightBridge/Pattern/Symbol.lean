import LightBridge.Text.Numeral

/-!
The symbols of patterns.

A symbol is what a pattern matches in one step: a character, a character of some class, or a place
between characters. Most characters are symbols of themselves. A backslash protects a character that
could be an operator, names one that is hard to write, gives one by its number, or stands for a class
or a place.
-/

namespace LightBridge.Pattern

/-- What a pattern can match in one step. -/
inductive Symbol where
  /-- A character. -/
  | literal (c : Char)
  /-- A character or byte by its number, which is below 256. -/
  | byte (n : Nat)
  /-- The digits, the blanks or the characters of words, or everything else. -/
  | kind (negated : Bool)
  /-- The beginning or the end of the text. -/
  | edge
  /-- A place where a word begins or ends, or where none does. -/
  | wordEdge
deriving DecidableEq, Repr

namespace Symbol

/-- The character that a symbol stands for. -/
def char? : Symbol → Option Char
  | literal c => some c
  | byte n => some (Char.ofNat n)
  | _ => none

/-- The symbol of a backslash and one character. Letters and digits have a meaning or are refused;
all other characters of ASCII are protected. -/
def ofEscape? : Char → Option Symbol
  | 'a' => some (literal '\x07')
  | 'f' => some (literal '\x0c')
  | 'n' => some (literal '\n')
  | 'r' => some (literal '\r')
  | 't' => some (literal '\t')
  | 'v' => some (literal '\x0b')
  | 'A' | 'z' => some edge
  | 'b' | 'B' | '<' | '>' => some wordEdge
  | 'd' | 's' | 'w' => some (kind false)
  | 'D' | 'S' | 'W' => some (kind true)
  | c => if c.toNat < 128 && !c.isAlphanum then some (literal c) else none

/-- The number of hexadecimal digits after a backslash and a letter. -/
def codeWidth? : Char → Option Nat
  | 'x' => some 2
  | 'u' => some 4
  | 'U' => some 8
  | _ => none

/-- The symbol with the number that hexadecimal digits denote. -/
def ofCode? (digits : List Char) : Option Symbol :=
  (Numeral.readHex? digits).bind fun n =>
    if digits.length = 2 then some (byte n)
    else if n.isValidChar then some (literal (Char.ofNat n))
    else none

theorem ofEscape?_eq_none_of_codeWidth? {c : Char} (h : (codeWidth? c).isSome) :
    ofEscape? c = none := by
  unfold codeWidth? at h
  split at h
  · rfl
  · rfl
  · rfl
  · simp at h

end Symbol

end LightBridge.Pattern
