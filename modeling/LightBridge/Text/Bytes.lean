/-!
Text counted in bytes.

A character takes one to four bytes in UTF-8. A position that is given in bytes stands between two
characters or inside one; a text is never cut inside a character.
-/

namespace LightBridge.Text

/-- The number of bytes that characters take. -/
def utf8Length : List Char → Nat
  | [] => 0
  | c :: rest => c.utf8Size + utf8Length rest

/-- The characters after the first `n` bytes, unless the text is shorter or a character would be
cut. -/
def dropBytes? : (n : Nat) → List Char → Option (List Char)
  | 0, cs => some cs
  | _ + 1, [] => none
  | n + 1, c :: cs => if c.utf8Size ≤ n + 1 then dropBytes? (n + 1 - c.utf8Size) cs else none

/-- The characters of the first `n` bytes, unless the text is shorter or a character would be cut. -/
def takeBytes? : (n : Nat) → List Char → Option (List Char)
  | 0, _ => some []
  | _ + 1, [] => none
  | n + 1, c :: cs =>
    if c.utf8Size ≤ n + 1 then (takeBytes? (n + 1 - c.utf8Size) cs).map (c :: ·) else none

end LightBridge.Text
