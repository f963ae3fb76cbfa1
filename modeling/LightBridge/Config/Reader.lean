import LightBridge.Config.Basic
import LightBridge.Json.Skip

/-!
Reading configurations.

A configuration is an object with the fields in any order, or an array with them in their order.
Missing fields have their defaults, unknown fields of an object are skipped, a field that is given
twice is an error, and so is an element after the last field. What goes wrong first in the text
decides the error.
-/

namespace LightBridge.Config

open Json (ReadError)
open Json.Reader (skipSpace scalar stringBody colon skipValue)

/-- A value that is neither array nor object and that `accept` can use. -/
def typed {α : Type} (size : Nat) (accept : Json → Option α) : Json.Reader α := fun cs =>
  match skipSpace cs with
  | '[' :: _ | '{' :: _ => .error .mistyped
  | cs => do
    let (v, cs) ← scalar size cs
    match accept v with
    | some a => pure (a, cs)
    | none => throw .mistyped

/-- A text. -/
def text (size : Nat) : Json.Reader String := typed size Json.string?

/-- A port. -/
def portNumber (size : Nat) : Json.Reader UInt16 :=
  typed size fun v => v.nat64?.bind fun n => if n < 0x10000 then some (UInt16.ofNat n) else none

/-- A duration. -/
def duration (size : Nat) : Json.Reader Duration := typed size fun v => v.nat64?.map durationOf

/-- Reads one field into a configuration. -/
def readField (size : Nat) (c : Config) : Field → Json.Reader Config
  | .address, cs => (text size cs).map fun (x, cs) => ({ c with address := x }, cs)
  | .port, cs => (portNumber size cs).map fun (x, cs) => ({ c with port := x }, cs)
  | .username, cs => (text size cs).map fun (x, cs) => ({ c with username := x }, cs)
  | .refreshInterval, cs => (duration size cs).map fun (x, cs) => ({ c with refreshInterval := x }, cs)
  | .minDelay, cs => (duration size cs).map fun (x, cs) => ({ c with minDelay := x }, cs)
  | .pairingTimeout, cs => (duration size cs).map fun (x, cs) => ({ c with pairingTimeout := x }, cs)
  | .pairingInterval, cs => (duration size cs).map fun (x, cs) => ({ c with pairingInterval := x }, cs)
  | .deviceType, cs => (text size cs).map fun (x, cs) => ({ c with deviceType := x }, cs)

/-- The fields of an object, from the text of a key on. A field that was seen before is an error as
soon as its key is read. -/
def readFields (size : Nat) : (fuel : Nat) → (seen : List Field) → Config → Json.Reader Config
  | 0, _, _, _ => .error .endOfInput
  | fuel + 1, seen, c, cs => do
    let (key, cs) ← stringBody size cs
    let field := Field.ofName? key
    if field.any (seen.contains ·) then throw .mistyped
    let ((), cs) ← colon cs
    let (c, cs) ← match field with
      | some f => readField size c f cs
      | none => do
        let ((), cs) ← skipValue size cs
        pure (c, cs)
    match skipSpace cs with
    | '}' :: rest => pure (c, rest)
    | ',' :: rest =>
      match skipSpace rest with
      | '"' :: rest => readFields size fuel (field.toList ++ seen) c rest
      | [] => throw .endOfInput
      | _ => throw .malformed
    | [] => throw .endOfInput
    | _ => throw .malformed

/-- An object, after its opening brace. -/
def readObject (size : Nat) : Json.Reader Config := fun cs =>
  match skipSpace cs with
  | '}' :: rest => .ok (default, rest)
  | '"' :: rest => readFields size (size + 1) [] default rest
  | [] => .error .endOfInput
  | _ => .error .malformed

/-- The elements of an array for the given fields, up to the closing bracket. -/
def readElements (size : Nat) : (isFirst : Bool) → List Field → Config → Json.Reader Config
  | _, [], c, cs =>
    match skipSpace cs with
    | ']' :: rest => .ok (c, rest)
    | [] => .error .endOfInput
    | _ => .error .malformed
  | true, f :: fields, c, cs =>
    match skipSpace cs with
    | ']' :: rest => .ok (c, rest)
    | [] => .error .endOfInput
    | cs => do
      let (c, cs) ← readField size c f cs
      readElements size false fields c cs
  | false, f :: fields, c, cs =>
    match skipSpace cs with
    | ']' :: rest => .ok (c, rest)
    | ',' :: rest =>
      match skipSpace rest with
      | ']' :: _ => .error .malformed
      | [] => .error .endOfInput
      | cs => do
        let (c, cs) ← readField size c f cs
        readElements size false fields c cs
    | [] => .error .endOfInput
    | _ => .error .malformed

/-- The configuration in a document. -/
def readDocument (size : Nat) : Json.Reader Config := fun cs =>
  match skipSpace cs with
  | '[' :: rest => readElements size true Field.all default rest
  | '{' :: rest => readObject size rest
  | cs => do
    let _ ← scalar size cs
    throw .mistyped

/-- The configuration that a text holds, with nothing but white space around it. -/
def read (s : String) : Except ReadError Config := do
  let cs := s.toList
  let (c, rest) ← readDocument cs.length cs
  if (skipSpace rest).isEmpty then pure c else throw .malformed

end LightBridge.Config
