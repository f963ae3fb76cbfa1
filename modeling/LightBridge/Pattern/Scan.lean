import LightBridge.Pattern.Flags
import LightBridge.Text.Alphanumeric
import LightBridge.Text.Blank
import LightBridge.Text.Slashes

/-!
Which patterns are well formed.

A pattern is scanned once from left to right. Groups and brackets must be closed in their order, what
is repeated must be there, an interval of characters must not run backwards, and nothing may be too
deep inside the rest. Numbers of repetitions in braces do not exist: an opening brace outside of
brackets is always an error.
-/

namespace LightBridge.Pattern

/-- How deep a list of parts is: none at all and a single one add nothing to what they hold. -/
def joined : List Nat → Nat
  | [] => 0
  | [d] => d
  | d :: ds => ds.foldl max d + 1

/-- A part of a branch. -/
structure Item where
  depth : Nat
  /-- Whether it can be repeated; a change of flags cannot. -/
  repeatable : Bool
deriving DecidableEq, Repr

/-- A group that is open, or the whole pattern. -/
structure Group where
  /-- The flags to come back to after the group. -/
  outside : Flags
  /-- The parts of the branch that is read, latest first. -/
  items : List Item
  /-- The depths of the branches before it, latest first. -/
  branches : List Nat
deriving DecidableEq, Repr

namespace Group

/-- The depth of the branch that is read. -/
def branch (g : Group) : Nat := joined (g.items.map (·.depth))

/-- The depth of what the group holds. -/
def depth (g : Group) : Nat := joined (g.branch :: g.branches)

/-- The group with one more part. -/
def add (g : Group) (item : Item) : Group := { g with items := item :: g.items }

end Group

/-- A bracket that is open. It holds members, or an operator on sets between two such lists. -/
structure Bracket where
  /-- The depths of the members since the latest operator. -/
  members : List Nat
  /-- The depth of what stands before that operator. -/
  left : Option Nat
deriving DecidableEq, Repr

namespace Bracket

/-- A bracket that holds nothing yet. -/
def empty : Bracket := ⟨[], none⟩

/-- The depth of what the bracket holds. -/
def depth (b : Bracket) : Nat :=
  match b.left with
  | none => joined b.members
  | some left => max left (joined b.members) + 1

/-- The bracket with one more member. -/
def add (b : Bracket) (depth : Nat) : Bracket := { b with members := depth :: b.members }

/-- The bracket after an operator. -/
def operate (b : Bracket) : Bracket := ⟨[], some b.depth⟩

end Bracket

/-- What a scan is at. -/
inductive Place where
  /-- Between the parts of a branch. -/
  | body
  /-- After the parenthesis that opens a group. -/
  | opened
  /-- After the question mark behind that parenthesis. -/
  | question
  /-- At the name of a group, after the letter that announces it. -/
  | announced
  /-- In the name of a group; its letters come latest first. -/
  | name (letters : List Char)
  /-- In a change of flags. -/
  | change (letters : List Char)
  /-- After an opening bracket, where a caret negates. -/
  | bracket
  /-- At the first member, where dashes, and a closing bracket that comes first, are members. -/
  | first
  /-- Where the next member begins. -/
  | next
  /-- After a member, which has a character unless it is a class. -/
  | member (c : Option Char)
  /-- After a member and the dash of an interval. -/
  | dash (c : Option Char)
  /-- In an operator between members, after its first character. -/
  | operator
  /-- In the name of a class. -/
  | className
deriving DecidableEq, Repr

/-- How much of a symbol has been read. -/
inductive Part where
  /-- Nothing. -/
  | none
  /-- A backslash. -/
  | backslash
  /-- Some of the hexadecimal digits of a number. -/
  | code (width : Nat) (digits : List Char)
deriving DecidableEq, Repr

/-- A scan of a pattern, up to some character. -/
structure Scan where
  place : Place
  part : Part
  flags : Flags
  /-- The innermost open group. -/
  group : Group
  /-- The groups around it, innermost first. -/
  around : List Group
  /-- The open brackets, innermost first. -/
  brackets : List Bracket
  /-- The names of groups so far, each with its letters latest first. -/
  names : List (List Char)
  /-- Whether a question mark would belong to the repetition before it. -/
  repeated : Bool
  /-- Whether the rest of the line is a comment. -/
  inComment : Bool
deriving DecidableEq, Repr

namespace Scan

/-- The greatest depth of a pattern. -/
def maxDepth : Nat := 250

/-- The scan of nothing. -/
def start : Scan := ⟨.body, .none, .initial, ⟨.initial, [], []⟩, [], [], [], false, false⟩

/-- The scan at another place. -/
def goto (s : Scan) (place : Place) : Scan := { s with place, repeated := false }

/-! ## Outside of brackets -/

/-- The scan after a part of a branch. -/
def item (s : Scan) (depth : Nat) : Scan := { s with group := s.group.add ⟨depth, true⟩ }.goto .body

/-- The scan after a symbol, unless the flags forbid it. -/
def symbol (s : Scan) (x : Symbol) : Option Scan :=
  if s.flags.allows x then some (s.item 0) else none

/-- The scan after the parenthesis that opens a group. -/
def openGroup (s : Scan) : Scan :=
  { s with group := ⟨s.flags, [], []⟩, around := s.group :: s.around }.goto .opened

/-- The scan after the parenthesis that closes a group. -/
def closeGroup (s : Scan) : Option Scan :=
  match s.around with
  | [] => none
  | outer :: around =>
    some ({ s with group := outer, around, flags := s.group.outside }.item (s.group.depth + 1))

/-- The scan after an operator that repeats the part before it. -/
def repetition (s : Scan) : Option Scan :=
  match s.group.items with
  | ⟨depth, true⟩ :: items =>
    some { s with group := { s.group with items := ⟨depth + 1, true⟩ :: items }, repeated := true }
  | _ => none

/-- The scan after a character between the parts of a branch. -/
def inBody (s : Scan) : Char → Option Scan
  | '\\' => some { s with part := .backslash }
  | '(' => some s.openGroup
  | ')' => s.closeGroup
  | '[' => some ({ s with brackets := [.empty] }.goto .bracket)
  | '{' => none
  | '|' =>
    let group := { s.group with items := [], branches := s.group.branch :: s.group.branches }
    some ({ s with group }.goto .body)
  | '?' => if s.repeated then some (s.goto .body) else s.repetition
  | '*' | '+' => s.repetition
  | '^' | '$' => s.symbol .edge
  | '.' => if s.flags.unicode then some (s.item 0) else none
  | c => s.symbol (.literal c)

/-- The scan after a character in a change of flags, where every letter comes once. With a colon the
change is for the group that it opens, with a parenthesis for the rest of the group around it. -/
def inChange (s : Scan) (letters : List Char) (c : Char) : Option Scan :=
  if c = ':' then
    if letters.getLast? = some '-' then none
    else some ({ s with flags := s.flags.change letters }.goto .body)
  else if c = ')' then
    if letters.isEmpty || letters.getLast? = some '-' then none
    else
      match s.around with
      | [] => none
      | outer :: around =>
        let flags := s.flags.change letters
        some ({ s with flags, group := outer.add ⟨0, false⟩, around }.goto .body)
  else if Flags.letters.contains c && !letters.contains c then
    some (s.goto (.change (letters ++ [c])))
  else none

/-- The scan after a character in the name of a group. No two groups have the same name. -/
def inName (s : Scan) (letters : List Char) (c : Char) : Option Scan :=
  if c = '>' then
    if letters.isEmpty || s.names.contains letters then none
    else some ({ s with names := letters :: s.names }.goto .body)
  else if c = '_' || Text.isAlphabetic c
      || (!letters.isEmpty && (['.', '[', ']'].contains c || Text.isAlphanumeric c)) then
    some (s.goto (.name (c :: letters)))
  else none

/-! ## In brackets -/

/-- The names of classes. -/
def classNames : List String :=
  ["alnum", "alpha", "ascii", "blank", "cntrl", "digit", "graph", "lower", "print", "punct", "space",
   "upper", "word", "xdigit"]

/-- Whether a named class is negated, where one follows an opening bracket. -/
def namedClass? (rest : List Char) : Option Bool :=
  let isNamed (cs : List Char) := classNames.any fun name => (name.toList ++ [':', ']']).isPrefixOf cs
  match rest with
  | ':' :: '^' :: cs => if isNamed cs then some true else none
  | ':' :: cs => if isNamed cs then some false else none
  | _ => none

/-- The character that tells whether a dash before `rest` belongs to an interval: the next one, or in
a spaced pattern the next that is no blank. Behind the sign of a comment it is the next after that
sign, whether it is in the comment or not. -/
def afterDash? (s : Scan) (rest : List Char) : Option Char :=
  if s.flags.spaced then
    match rest.dropWhile Text.isBlank with
    | '#' :: rest => (rest.dropWhile Text.isBlank).head?
    | rest => rest.head?
  else rest.head?

/-- The scan after a member of the innermost bracket. -/
def addMember (s : Scan) (depth : Nat) (place : Place) : Scan :=
  match s.brackets with
  | [] => s
  | b :: outer => { s with brackets := b.add depth :: outer }.goto place

/-- The scan after a symbol that is a member, unless it cannot be one. -/
def symbolMember (s : Scan) (x : Symbol) : Option Scan :=
  match x, x.char? with
  | .kind _, _ => if s.flags.allows x then some (s.addMember 0 (.member none)) else none
  | _, some c => if s.flags.allowsMember c then some (s.addMember 0 (.member (some c))) else none
  | _, none => none

/-- The scan after the bracket that closes the innermost one. -/
def closeBracket (s : Scan) : Option Scan :=
  match s.brackets with
  | [] => none
  | [b] => some ({ s with brackets := [] }.item (b.depth + 1))
  | b :: outer => some ({ s with brackets := outer }.addMember (b.depth + 1) .next)

/-- The scan after a character where a member begins, with `rest` behind it. -/
def inNext (s : Scan) (c : Char) (rest : List Char) : Option Scan :=
  if c = '\\' then some { s.goto .next with part := .backslash }
  else if c = ']' then s.closeBracket
  else if c = '[' then
    match namedClass? rest with
    | some negated =>
      if s.flags.allowsClass negated then some (s.addMember 0 .className) else none
    | none => some ({ s with brackets := .empty :: s.brackets }.goto .bracket)
  else if ['&', '-', '~'].contains c && rest.head? = some c then
    match s.brackets with
    | [] => none
    | b :: outer => some ({ s with brackets := b.operate :: outer }.goto .operator)
  else s.symbolMember (.literal c)

/-- The scan after a character at the first member of a bracket. -/
def inFirst (s : Scan) (c : Char) (rest : List Char) : Option Scan :=
  let isDash := c = '-'
  if isDash || (c = ']' && s.brackets.head? = some .empty) then
    if s.flags.allowsMember c then some (s.addMember 0 (if isDash then .first else .next)) else none
  else s.inNext c rest

/-- The scan after the end of an interval that begins with a member. -/
def interval (s : Scan) (first : Option Char) (x : Symbol) : Option Scan :=
  match first, x.char? with
  | some a, some b => if s.flags.allowsMember b && a ≤ b then some (s.goto .next) else none
  | _, _ => none

/-! ## One character after the other -/

/-- The scan after a character that is not behind a backslash, with `rest` behind it. -/
def read (s : Scan) (c : Char) (rest : List Char) : Option Scan :=
  match s.place with
  | .body => s.inBody c
  | .opened => if c = '?' then some (s.goto .question) else (s.goto .body).inBody c
  | .question =>
    if c = 'P' then some (s.goto .announced)
    else if c = '<' then some (s.goto (.name []))
    else s.inChange [] c
  | .announced => if c = '<' then some (s.goto (.name [])) else none
  | .name letters => s.inName letters c
  | .change letters => s.inChange letters c
  | .bracket =>
    if c = '^' then if s.flags.unicode then some (s.goto .first) else none else s.inFirst c rest
  | .first => s.inFirst c rest
  | .next => s.inNext c rest
  | .member first =>
    if c = '-' && !([some ']', some '-'].contains (s.afterDash? rest)) then some (s.goto (.dash first))
    else s.inNext c rest
  | .dash first =>
    if c = '\\' then some { s with part := .backslash } else s.interval first (.literal c)
  | .operator => some (s.goto .next)
  | .className => some (if c = ']' then s.goto .next else s)

/-- The scan after a symbol that began with a backslash. -/
def take (s : Scan) (x : Symbol) : Option Scan :=
  let s := { s with part := .none }
  match s.place with
  | .next => s.symbolMember x
  | .dash first => s.interval first x
  | _ => s.symbol x

/-- Whether blanks and comments do not count here. -/
def isSkipping (s : Scan) : Bool :=
  s.flags.spaced &&
    match s.part, s.place with
    | .backslash, _ => false
    | .code .., _ => true
    | .none, .question | .none, .announced | .none, .name _ | .none, .change _ => false
    | .none, _ => true

/-- The scan after a character, with `rest` behind it. -/
def step (s : Scan) (c : Char) (rest : List Char) : Option Scan :=
  if s.inComment then some { s with inComment := c ≠ '\n' }
  else if s.isSkipping && c = '#' then some { s with inComment := true, repeated := false }
  else if s.isSkipping && Text.isBlank c then some { s with repeated := false }
  else
    match s.part with
    | .none => s.read c rest
    | .backslash =>
      match Symbol.codeWidth? c with
      | some width => some { s with part := .code width [] }
      | none => (Symbol.ofEscape? c).bind s.take
    | .code width digits =>
      if (Numeral.hexValue? c).isNone then none
      else if digits.length + 1 < width then some { s with part := .code width (digits ++ [c]) }
      else (Symbol.ofCode? (digits ++ [c])).bind s.take

/-- The scan after some characters. -/
def run : Scan → List Char → Option Scan
  | s, [] => some s
  | s, c :: rest => (s.step c rest).bind fun s => s.run rest

/-- Whether a pattern can end after a scan. -/
def isComplete (s : Scan) : Bool :=
  s.place = .body && s.part = .none && s.around.isEmpty && s.group.depth ≤ maxDepth

end Scan

/-- Whether the text of a pattern is well formed. -/
def isWellFormed (cs : List Char) : Bool := (Scan.start.run cs).any Scan.isComplete

theorem isWellFormed_nil : isWellFormed [] = true := rfl

end LightBridge.Pattern
