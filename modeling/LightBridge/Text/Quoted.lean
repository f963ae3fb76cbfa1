import LightBridge.Text.Invisible

/-!
Quoted text, as it stands in descriptions and error messages.

A text is put between double quotes. A quote and a backslash get a backslash before them, NUL,
tab, line feed and carriage return have short forms, every other invisible character is written
by its code point in hexadecimal, and all else stands for itself.
-/

namespace LightBridge.Text

/-- The hexadecimal digits of a code point, in lower case and without leading zeros. -/
def codePoint (c : Char) : List Char :=
  Nat.toDigits 16 c.toNat

/-- How one character is written between the quotes. -/
def quoteChar (c : Char) : List Char :=
  match c with
  | '\x00' => ['\\', '0']
  | '\t' => ['\\', 't']
  | '\n' => ['\\', 'n']
  | '\r' => ['\\', 'r']
  | '"' => ['\\', '"']
  | '\\' => ['\\', '\\']
  | c => if isInvisible c then ['\\', 'u', '\x7b'] ++ codePoint c ++ ['\x7d'] else [c]

/-- `s` in double quotes. -/
def quote (s : String) : String :=
  String.ofList ('"' :: s.toList.flatMap quoteChar ++ ['"'])

end LightBridge.Text
