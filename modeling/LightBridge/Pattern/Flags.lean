import LightBridge.Pattern.Symbol

/-!
How the parts of a pattern are understood.

There is no table of the cases of letters and none of the classes of characters. A pattern can
therefore ignore case and use classes and edges of words only where its text is taken as bytes, and
there it may match no byte beyond ASCII.
-/

namespace LightBridge.Pattern

/-- How a part of a pattern is understood. -/
structure Flags where
  /-- The case of letters does not count. -/
  caseless : Bool
  /-- The text is taken as characters, and not as bytes. -/
  unicode : Bool
  /-- Blanks and comments between symbols do not count. -/
  spaced : Bool
deriving DecidableEq, Repr

namespace Flags

/-- The flags at the beginning of a pattern. -/
def initial : Flags := ⟨false, true, false⟩

/-- The letters that change flags, with the minus sign that switches off. -/
def letters : List Char := ['i', 'm', 's', 'U', 'u', 'x', 'R', '-']

/-- The flags after a change: the letters before a minus sign are switched on, those after it off. -/
def change (f : Flags) (change : List Char) : Flags :=
  let on := change.takeWhile (· ≠ '-')
  let off := change.dropWhile (· ≠ '-')
  let value (letter : Char) (old : Bool) := on.contains letter || (old && !off.contains letter)
  ⟨value 'i' f.caseless, value 'u' f.unicode, value 'x' f.spaced⟩

/-- Whether a pattern can have a symbol here, outside of brackets. -/
def allows (f : Flags) : Symbol → Bool
  | .literal _ => !(f.unicode && f.caseless)
  | .byte n => if f.unicode then !f.caseless else n < 128
  | .kind negated => !f.unicode && !negated
  | .edge => true
  | .wordEdge => !f.unicode

/-- Whether brackets can have a character as a member here. -/
def allowsMember (f : Flags) (c : Char) : Bool :=
  if f.unicode then !f.caseless else c.toNat < 128

/-- Whether brackets can have a named class as a member here. -/
def allowsClass (f : Flags) (negated : Bool) : Bool :=
  if f.unicode then !f.caseless else !negated

end Flags

end LightBridge.Pattern
