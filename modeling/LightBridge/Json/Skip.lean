import LightBridge.Json.Reader

/-!
Skipping JSON values.

A value that nobody asks for is skipped without being built. Only its grammar is checked: its numbers
may lie beyond the range of doubles, its escapes may be lone surrogates, and it may hold any number
of containers inside one another. The containers that are open are kept in a list, the innermost
first.
-/

namespace LightBridge.Json

/-- The kinds of containers. -/
inductive Container where
  | array
  | object
deriving DecidableEq, Repr

/-- The character that ends a container. -/
def Container.closing : Container → Char
  | .array => ']'
  | .object => '}'

namespace Reader

/-- An escape without its value, after its backslash. -/
def skipEscape : Reader Unit
  | [] => .error .endOfInput
  | 'u' :: rest => (hexQuad rest).map fun (_, rest) => ((), rest)
  | c :: rest => if (shortEscape? c).isSome then .ok ((), rest) else .error .malformed

/-- The rest of a string, after its first quote; `fuel` bounds the number of characters. -/
def skipString : (fuel : Nat) → Reader Unit
  | 0, _ => .error .endOfInput
  | _ + 1, [] => .error .endOfInput
  | _ + 1, '"' :: rest => .ok ((), rest)
  | fuel + 1, '\\' :: rest => do
    let ((), rest) ← skipEscape rest
    skipString fuel rest
  | fuel + 1, c :: rest => if c.toNat < 32 then .error .malformed else skipString fuel rest

/-- A number without its value; a number that ends too early is wrong as it stands. -/
def skipNumber : Reader Unit := fun cs =>
  match numberText cs with
  | .ok (_, rest) => .ok ((), rest)
  | .error _ => .error .malformed

/-- A value that is neither an array nor an object. -/
def skipScalar (size : Nat) : Reader Unit
  | [] => .error .endOfInput
  | 'n' :: rest => expect ['u', 'l', 'l'] rest
  | 't' :: rest => expect ['r', 'u', 'e'] rest
  | 'f' :: rest => expect ['a', 'l', 's', 'e'] rest
  | '"' :: rest => skipString (size + 1) rest
  | c :: rest => if c = '-' || c.isDigit then skipNumber (c :: rest) else .error .malformed

/-- What stands before the value of an item: nothing in an array, a key and a colon in an object. -/
def skipLabel (size : Nat) : Container → Reader Unit
  | .array, cs => .ok ((), cs)
  | .object, cs =>
    match skipSpace cs with
    | '"' :: rest => do
      let ((), rest) ← skipString (size + 1) rest
      colon rest
    | [] => .error .endOfInput
    | _ => .error .malformed

/-- What follows a value: the ends of containers, and then a comma and the label of the next item,
unless no container is left open. -/
def afterValue (size : Nat) : List Container → Reader (List Container)
  | [], cs => .ok ([], cs)
  | c :: outer, cs =>
    match skipSpace cs with
    | [] => .error .endOfInput
    | d :: rest =>
      if d = ',' then (skipLabel size c rest).map fun ((), rest) => (c :: outer, rest)
      else if d = c.closing then afterValue size outer rest
      else .error .malformed

/-- What follows the opening of a container: its end, or the label of its first item. -/
def afterOpening (size : Nat) (c : Container) (outer : List Container) :
    Reader (List Container) := fun cs =>
  match skipSpace cs with
  | [] => .error .endOfInput
  | d :: rest =>
    if d = c.closing then afterValue size outer rest
    else (skipLabel size c (d :: rest)).map fun ((), rest) => (c :: outer, rest)

/-- A value inside the given containers, and everything up to the end of the outermost of them;
`fuel` bounds the number of scalars and openings. -/
def skipWithin (size : Nat) : (fuel : Nat) → List Container → Reader Unit
  | 0, _, _ => .error .endOfInput
  | fuel + 1, within, cs => do
    let (left, cs) ← match skipSpace cs with
      | '[' :: rest => afterOpening size .array within rest
      | '{' :: rest => afterOpening size .object within rest
      | cs => do
        let ((), cs) ← skipScalar size cs
        afterValue size within cs
    if left.isEmpty then pure ((), cs) else skipWithin size fuel left cs

/-- A value of any kind. -/
def skipValue (size : Nat) : Reader Unit := skipWithin size (size + 1) []

end Reader

end LightBridge.Json
