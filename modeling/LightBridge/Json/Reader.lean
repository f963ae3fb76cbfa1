import LightBridge.Json.Basic
import LightBridge.Double.Decimal
import LightBridge.Text.Bytes
import LightBridge.Text.Numeral

/-!
Reading JSON text.

Reading is strict: one value, white space only where the grammar has it, no lone surrogates and no
raw control characters in strings, at most 127 containers around a value, and no number beyond the
range of doubles. A reader takes characters and gives what it read together with the characters
that follow; a failure says whether the text ended too early or is wrong, which whoever reads only
a part of the text needs to know. The readers that repeat something are given the size of the whole
text, which bounds the number of repetitions.
-/

namespace LightBridge.Json

/-- Why a text could not be read: it ended too early, it breaks the grammar, or it is a well formed
value of the wrong kind. -/
inductive ReadError where
  | endOfInput
  | malformed
  | mistyped
deriving DecidableEq, Repr

/-- What was read and the characters that follow it. -/
abbrev Reader (α : Type) := List Char → Except ReadError (α × List Char)

namespace Reader

/-- The white space of the grammar. -/
def isSpace (c : Char) : Bool := c == ' ' || c == '\t' || c == '\n' || c == '\r'

/-- The characters after leading white space. -/
def skipSpace (cs : List Char) : List Char := cs.dropWhile isSpace

/-- Takes exactly the characters of `word`. -/
def expect : (word : List Char) → Reader Unit
  | [], cs => .ok ((), cs)
  | _ :: _, [] => .error .endOfInput
  | w :: word, c :: cs => if c = w then expect word cs else .error .malformed

/-! ## Numbers -/

/-- The parts of a number as written: the digits before the point, those after it, and the
exponent. -/
structure NumberText where
  negative : Bool
  whole : List Char
  fraction : List Char
  exponent : Int
  isWhole : Bool
deriving Repr

/-- At least one digit. -/
def someDigits (cs : List Char) : Except ReadError (List Char × List Char) :=
  match cs with
  | [] => .error .endOfInput
  | c :: _ =>
    if c.isDigit then .ok (cs.takeWhile Char.isDigit, cs.dropWhile Char.isDigit)
    else .error .malformed

/-- Digits without a superfluous zero in front. -/
def wholePart : Reader (List Char)
  | '0' :: rest =>
    if rest.head?.any Char.isDigit then .error .malformed else .ok (['0'], rest)
  | cs => someDigits cs

/-- The digits after the point, if there is a point. -/
def fractionPart : Reader (Option (List Char))
  | '.' :: rest => (someDigits rest).map fun (digits, rest) => (some digits, rest)
  | cs => .ok (none, cs)

/-- The digits of an exponent as an integer. -/
def exponentDigits (negative : Bool) (cs : List Char) : Except ReadError (Option Int × List Char) :=
  (someDigits cs).map fun (digits, rest) =>
    let n := Nat.ofDigitChars 10 digits 0
    (some (if negative then -(n : Int) else n), rest)

/-- The exponent, if there is one. -/
def exponentPart : Reader (Option Int)
  | c :: rest =>
    if c = 'e' || c = 'E' then
      match rest with
      | '-' :: rest => exponentDigits true rest
      | '+' :: rest => exponentDigits false rest
      | rest => exponentDigits false rest
    else .ok (none, c :: rest)
  | [] => .ok (none, [])

/-- A number without its sign. -/
def unsignedText (negative : Bool) : Reader NumberText := fun cs => do
  let (whole, cs) ← wholePart cs
  let (fraction, cs) ← fractionPart cs
  let (exponent, cs) ← exponentPart cs
  pure (⟨negative, whole, fraction.getD [], exponent.getD 0,
    fraction.isNone && exponent.isNone⟩, cs)

/-- A number as written. -/
def numberText : Reader NumberText
  | '-' :: rest => unsignedText true rest
  | cs => unsignedText false cs

/-- Appends digits to a significand as long as it stays below 2⁶⁴, and gives the digits left. -/
def accumulate (significand : Nat) : List Char → Nat × List Char
  | [] => (significand, [])
  | d :: rest =>
    let next := significand * 10 + (d.toNat - '0'.toNat)
    if next < 0x10000000000000000 then accumulate next rest else (significand, d :: rest)

/-- The number that is written, or nothing when it is too large for a double. A whole number out
of the 64-bit ranges becomes a double, and so does a negative zero. -/
def NumberText.value? (t : NumberText) : Option Number :=
  let (whole, dropped) := accumulate 0 t.whole
  if t.isWhole && dropped.isEmpty then
    if t.negative && whole == 0 then some (.double (Double.zero true))
    else
      match Number.ofInt? (if t.negative then -(whole : Int) else whole) with
      | some n => some n
      | none => (Double.ofDecimal? t.negative whole 0).map .double
  else
    let (significand, unused) := accumulate whole t.fraction
    let places : Int := t.fraction.length - unused.length
    (Double.ofDecimal? t.negative significand (dropped.length - places + t.exponent)).map .double

/-- A number of the grammar, within the range of doubles. -/
def number : Reader Number := fun cs => do
  let (t, rest) ← numberText cs
  match t.value? with
  | some n => pure (n, rest)
  | none => throw .malformed

/-! ## Strings -/

/-- The value of four hexadecimal digits. When fewer characters are left, the text has ended too
early, unless they take four bytes. -/
def hexQuad : Reader Nat
  | a :: b :: c :: d :: rest =>
    match Numeral.readHex? [a, b, c, d] with
    | some n => .ok (n, rest)
    | none => .error .malformed
  | cs => .error (if 4 ≤ Text.utf8Length cs then .malformed else .endOfInput)

/-- Whether `n` is the first half of a surrogate pair. -/
def isHighSurrogate (n : Nat) : Bool := 0xD800 ≤ n && n ≤ 0xDBFF

/-- Whether `n` is the second half of a surrogate pair. -/
def isLowSurrogate (n : Nat) : Bool := 0xDC00 ≤ n && n ≤ 0xDFFF

/-- The second half of a surrogate pair, with its escape. -/
def lowSurrogate : Reader Nat := fun cs => do
  let ((), cs) ← expect ['\\', 'u'] cs
  let (n, cs) ← hexQuad cs
  if isLowSurrogate n then pure (n, cs) else throw .malformed

/-- The character of a Unicode escape, after its `u`. -/
def unicodeEscape : Reader Char := fun cs => do
  let (n, cs) ← hexQuad cs
  if isLowSurrogate n then throw .malformed
  else if isHighSurrogate n then
    let (low, cs) ← lowSurrogate cs
    pure (Char.ofNat (0x10000 + (n - 0xD800) * 0x400 + (low - 0xDC00)), cs)
  else pure (Char.ofNat n, cs)

/-- The characters that stand for another one after a backslash. -/
def shortEscape? : Char → Option Char
  | '"' => some '"'
  | '\\' => some '\\'
  | '/' => some '/'
  | 'b' => some '\x08'
  | 'f' => some '\x0c'
  | 'n' => some '\n'
  | 'r' => some '\r'
  | 't' => some '\t'
  | _ => none

/-- The character of an escape, after its backslash. -/
def escape : Reader Char
  | [] => .error .endOfInput
  | 'u' :: rest => unicodeEscape rest
  | c :: rest =>
    match shortEscape? c with
    | some c => .ok (c, rest)
    | none => .error .malformed

/-- The rest of a string, after the characters `seen`, the last one first; `fuel` bounds the number
of characters that follow. -/
def stringTail : (fuel : Nat) → (seen : List Char) → Reader String
  | 0, _, _ => .error .endOfInput
  | _ + 1, _, [] => .error .endOfInput
  | _ + 1, seen, '"' :: rest => .ok (String.ofList seen.reverse, rest)
  | fuel + 1, seen, '\\' :: rest => do
    let (c, rest) ← escape rest
    stringTail fuel (c :: seen) rest
  | fuel + 1, seen, c :: rest =>
    if c.toNat < 32 then .error .malformed else stringTail fuel (c :: seen) rest

/-- A string, after its first quote. -/
def stringBody (size : Nat) : Reader String := stringTail (size + 1) []

/-! ## Values -/

/-- A colon with white space before it. -/
def colon : Reader Unit := fun cs =>
  match skipSpace cs with
  | ':' :: rest => .ok ((), rest)
  | [] => .error .endOfInput
  | _ => .error .malformed

/-- The items of an array from one item on, up to the closing bracket. -/
def itemsFrom (item : Reader Json) : (fuel : Nat) → Reader (List Json)
  | 0, _ => .error .endOfInput
  | fuel + 1, cs => do
    let (v, cs) ← item cs
    match skipSpace cs with
    | ']' :: rest => pure ([v], rest)
    | ',' :: rest =>
      let (vs, rest) ← itemsFrom item fuel rest
      pure (v :: vs, rest)
    | [] => throw .endOfInput
    | _ => throw .malformed

/-- The fields of an object from one field on, up to the closing brace. A repeated key keeps its
first place and takes the last value. -/
def fieldsFrom (size : Nat) (item : Reader Json) : (fuel : Nat) → Fields → Reader Fields
  | 0, _, _ => .error .endOfInput
  | fuel + 1, fields, cs =>
    match skipSpace cs with
    | '"' :: rest => do
      let (key, cs) ← stringBody size rest
      let ((), cs) ← colon cs
      let (v, cs) ← item cs
      let fields := Fields.put fields key v
      match skipSpace cs with
      | '}' :: rest => pure (fields, rest)
      | ',' :: rest => fieldsFrom size item fuel fields rest
      | [] => throw .endOfInput
      | _ => throw .malformed
    | [] => .error .endOfInput
    | _ => .error .malformed

/-- An array, after its opening bracket. -/
def arrayTail (size : Nat) (item : Reader Json) : Reader Json := fun cs =>
  match skipSpace cs with
  | ']' :: rest => .ok (.array [], rest)
  | cs => (itemsFrom item (size + 1) cs).map fun (items, rest) => (.array items, rest)

/-- An object, after its opening brace. -/
def objectTail (size : Nat) (item : Reader Json) : Reader Json := fun cs =>
  match skipSpace cs with
  | '}' :: rest => .ok (.object [], rest)
  | cs =>
    (fieldsFrom size item (size + 1) [] cs).map fun (fields, rest) => (.object fields, rest)

/-- A value that is neither an array nor an object. -/
def scalar (size : Nat) : Reader Json
  | [] => .error .endOfInput
  | 'n' :: rest => (expect ['u', 'l', 'l'] rest).map fun (_, rest) => (.null, rest)
  | 't' :: rest => (expect ['r', 'u', 'e'] rest).map fun (_, rest) => (.bool true, rest)
  | 'f' :: rest => (expect ['a', 'l', 's', 'e'] rest).map fun (_, rest) => (.bool false, rest)
  | '"' :: rest => (stringBody size rest).map fun (s, rest) => (.string s, rest)
  | c :: rest =>
    if c = '-' || c.isDigit then (number (c :: rest)).map fun (n, rest) => (.number n, rest)
    else .error .malformed

/-- A value with white space before it and at most `depth` containers inside one another. -/
def value (size : Nat) : (depth : Nat) → Reader Json
  | 0, cs => scalar size (skipSpace cs)
  | depth + 1, cs =>
    match skipSpace cs with
    | '[' :: rest => arrayTail size (value size depth) rest
    | '{' :: rest => objectTail size (value size depth) rest
    | cs => scalar size cs

/-- The number of containers that may stand inside one another. -/
def maxDepth : Nat := 127

end Reader

/-- The value that a text holds, with nothing but white space around it. -/
def read? (text : String) : Option Json :=
  let cs := text.toList
  match Reader.value cs.length Reader.maxDepth cs with
  | .ok (v, rest) => if (Reader.skipSpace rest).isEmpty then some v else none
  | .error _ => none

end LightBridge.Json
