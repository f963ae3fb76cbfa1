import LightBridge.Pattern.Scan
import LightBridge.Text.Bytes
import LightBridge.Text.Pieces

/-!
Which events a log takes.

A filter is a list of directives separated by commas: a level for everything, or a target, a span or
both with or without a level. A span may ask for a field, alone or with a value that is a number or
a pattern.
-/

namespace LightBridge

/-- The levels of events, from nothing to everything. -/
inductive LogLevel where
  | off
  | error
  | warn
  | info
  | debug
  | trace
deriving DecidableEq, Repr

namespace LogLevel

/-- All levels, each at the place of its number. -/
def all : List LogLevel := [off, error, warn, info, debug, trace]

/-- The name of a level. -/
def name : LogLevel → String
  | off => "off"
  | error => "error"
  | warn => "warn"
  | info => "info"
  | debug => "debug"
  | trace => "trace"

/-- The level with a name in upper or lower case, or with a number. -/
def ofText? (cs : List Char) : Option LogLevel :=
  ((Numeral.readNat? cs).bind fun n => all[n]?).or
    (all.find? fun l => l.name.toList = cs.map Char.toLower)

theorem ofText?_name (l : LogLevel) : ofText? l.name.toList = some l := by
  cases l <;> decide

end LogLevel

namespace LogFilter

/-- Whether a target can begin with a character: a letter or number of any script, or one of three
marks. -/
def startsTarget (c : Char) : Bool :=
  Text.isAlphanumeric c || c == '_' || c == ':' || c == '-'

/-- Whether a directive can end with `cs`: nothing, or an equals sign and possibly a level. Blanks
around a directive are allowed only when it has no equals sign. -/
def isLevelPart (blanksAround : Bool) : List Char → Bool
  | [] => true
  | '=' :: level => !blanksAround && (level.isEmpty || (LogLevel.ofText? level).isSome)
  | _ => false

/-- Whether the value of a field can be looked for: a number, or else a pattern. -/
def isFieldValue (cs : List Char) : Bool := Numeral.isDecimal cs || Pattern.isWellFormed cs

/-- Whether `cs` names a field and possibly, after an equals sign, its value, which goes to the next
equals sign. -/
def isField (cs : List Char) : Bool :=
  match Text.pieces '=' cs with
  | _ :: value :: _ => isFieldValue value
  | _ => !cs.isEmpty

/-- The text of a field that `size` bytes of a directive hold, `fromEnd` bytes before its end. The
blanks around the directive are left out when its bytes are counted, but not when the text is taken
from it, so blanks in front move a field to the left. -/
def fieldText? (directive : List Char) (fromEnd size : Nat) : Option (List Char) :=
  (Text.dropBytes? (Text.utf8Length (Text.trimBlanks directive) - fromEnd) directive).bind
    (Text.takeBytes? size)

/-- Whether a directive can go on with `cs` after the bracket that opens a span: a name and possibly
a field in braces, the closing bracket, and a level. -/
def isSpanPart (directive cs : List Char) : Bool :=
  let blanksAround := Text.trimBlanks directive != directive
  match cs.dropWhile fun c => c ≠ ']' && c ≠ '{' with
  | ']' :: rest => isLevelPart blanksAround rest
  | '{' :: rest =>
    let size := Text.utf8Length (rest.takeWhile (· ≠ '}'))
    match rest.dropWhile (· ≠ '}') with
    | '}' :: ']' :: after =>
      (fieldText? directive (Text.utf8Length rest) size).any isField &&
        isLevelPart blanksAround after
    | _ => false
  | _ => false

/-- Whether a directive is well formed: a level, or a target, a span or both, possibly with an equals
sign and a level. -/
def isDirective (directive : List Char) : Bool :=
  match Text.trimBlanks directive with
  | [] => false
  | '[' :: rest => isSpanPart directive rest
  | c :: rest =>
    startsTarget c &&
      match rest.dropWhile fun c => c ≠ '=' && c ≠ '[' with
      | '[' :: rest => isSpanPart directive rest
      | rest => isLevelPart (Text.trimBlanks directive != directive) rest

/-- Whether every directive of a filter is well formed; empty ones do not count. -/
def isValid (directives : String) : Bool :=
  (Text.pieces ',' directives.toList).all fun cs => cs.isEmpty || isDirective cs

end LogFilter

end LightBridge
