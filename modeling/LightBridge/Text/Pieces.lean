/-!
Cutting text at a separator.

The pieces of a text are what stands between its separators; put together with separators they give
the text again.
-/

namespace LightBridge.Text

/-- Puts a character in front of the first piece. -/
def consPiece (c : Char) : List (List Char) → List (List Char)
  | [] => [[c]]
  | piece :: rest => (c :: piece) :: rest

/-- The pieces of `cs` between separators. There is always one more piece than separators. -/
def pieces (separator : Char) : List Char → List (List Char)
  | [] => [[]]
  | c :: cs =>
    if c = separator then [] :: pieces separator cs else consPiece c (pieces separator cs)

end LightBridge.Text
