import LightBridge.Json.Basic

/-!
The text of JSON values.

The compact form has no white space; fields stand in their order. In a string only the quote, the
backslash and the control characters below U+0020 are escaped: five of them have short forms, the
others are written with four hexadecimal digits. The indented form puts every item and field on a
line of its own, two spaces deeper than the line that opens it.
-/

namespace LightBridge.Json

/-- A hexadecimal digit in lower case. -/
def hexDigit (n : Nat) : Char := Nat.digitChar n

/-- How one character of a string is written. -/
def escapeChar (c : Char) : List Char :=
  match c with
  | '"' => ['\\', '"']
  | '\\' => ['\\', '\\']
  | '\x08' => ['\\', 'b']
  | '\x0c' => ['\\', 'f']
  | '\n' => ['\\', 'n']
  | '\r' => ['\\', 'r']
  | '\t' => ['\\', 't']
  | c =>
    if c.toNat < 32 then
      ['\\', 'u', '0', '0', hexDigit (c.toNat / 16), hexDigit (c.toNat % 16)]
    else [c]

/-- A string between its quotes. -/
def renderString (s : String) : List Char :=
  '"' :: s.toList.flatMap escapeChar ++ ['"']

/-- The text of a truth value. -/
def renderBool (b : Bool) : List Char :=
  if b then ['t', 'r', 'u', 'e'] else ['f', 'a', 'l', 's', 'e']

mutual

/-- The compact form. -/
def render : Json → List Char
  | .null => ['n', 'u', 'l', 'l']
  | .bool b => renderBool b
  | .number n => n.text
  | .string s => renderString s
  | .array [] => ['[', ']']
  | .array (item :: rest) => '[' :: item.render ++ renderItems rest
  | .object [] => ['{', '}']
  | .object ((k, v) :: rest) => '{' :: renderString k ++ ':' :: v.render ++ renderFields rest

/-- The items after the first, and the closing bracket. -/
def renderItems : List Json → List Char
  | [] => [']']
  | item :: rest => ',' :: item.render ++ renderItems rest

/-- The fields after the first, and the closing brace. -/
def renderFields : List (String × Json) → List Char
  | [] => ['}']
  | (k, v) :: rest => ',' :: renderString k ++ ':' :: v.render ++ renderFields rest

end

/-- The compact text of a value. -/
def text (v : Json) : String := String.ofList v.render

/-- A line break and the indentation of the given depth. -/
def newline (depth : Nat) : List Char := '\n' :: List.replicate (2 * depth) ' '

mutual

/-- The indented form of a value that stands at the given depth. -/
def indented (depth : Nat) : Json → List Char
  | .array (item :: rest) =>
    '[' :: newline (depth + 1) ++ item.indented (depth + 1) ++ indentedItems depth rest
  | .object ((k, v) :: rest) =>
    '{' :: newline (depth + 1) ++ renderString k ++ ':' :: ' ' :: v.indented (depth + 1) ++
      indentedFields depth rest
  | v => v.render

/-- The items after the first, and the closing bracket on its own line. -/
def indentedItems (depth : Nat) : List Json → List Char
  | [] => newline depth ++ [']']
  | item :: rest =>
    ',' :: newline (depth + 1) ++ item.indented (depth + 1) ++ indentedItems depth rest

/-- The fields after the first, and the closing brace on its own line. -/
def indentedFields (depth : Nat) : List (String × Json) → List Char
  | [] => newline depth ++ ['}']
  | (k, v) :: rest =>
    ',' :: newline (depth + 1) ++ renderString k ++ ':' :: ' ' :: v.indented (depth + 1) ++
      indentedFields depth rest

end

/-- The indented text of a value. -/
def indentedText (v : Json) : String := String.ofList (v.indented 0)

end LightBridge.Json
