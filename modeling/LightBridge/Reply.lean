import LightBridge.Json.Printer
import LightBridge.Text.Slashes

/-!
Replies of a bridge.

A bridge answers a write with an array of entries. An entry with the field `error` reports a
refusal; an entry with the field `success` acknowledges what it holds, each acknowledged field under
its full address. A read is answered with the state itself.
-/

namespace LightBridge

/-- A refusal reported by a bridge. -/
structure Refusal where
  code : Int
  address : String
  description : String
deriving DecidableEq, Repr

namespace Reply

/-- The refusal that the value of an `error` field describes; what is missing or has another kind
counts as code -1 or as empty text. -/
def refusal (error : Json) : Refusal :=
  { code := ((error.get? "type").bind Json.int64?).getD (-1)
    address := error.textAt ["address"]
    description := error.textAt ["description"] }

/-- The first refusal in a reply; what is no array refuses nothing. -/
def refusal? : Json → Option Refusal
  | .array entries => (entries.findSome? (·.get? "error")).map refusal
  | _ => none

/-- What the entries of a reply acknowledge for a key: the value in the first entry that has it. -/
def acknowledged? (reply : Json) (key : String) : Option Json :=
  match reply with
  | .array entries => entries.findSome? fun entry => (entry.get? "success").bind (·.get? key)
  | _ => none

/-- The address under which a field written to `path` is acknowledged. -/
def fieldAddress (path key : String) : String := Text.trimSlashes path ++ "/" ++ key

/-- Whether a reply acknowledges one written field with an agreeing value. -/
def acknowledges (path : String) (reply : Json) (field : String × Json) : Bool :=
  match acknowledged? reply (fieldAddress path field.1) with
  | some value => value.agrees field.2
  | none => false

/-- Whether a reply acknowledges every written field with an agreeing value. -/
def acknowledgesAll (path : String) (fields : Fields) (reply : Json) : Bool :=
  fields.all (acknowledges path reply)

/-- Whether the first entry of a reply confirms that `path` was deleted. -/
def confirmsDeletion (reply : Json) (path : String) : Bool :=
  ((reply.first?.bind (·.get? "success")).bind Json.string?) == some (path ++ " deleted")

/-- The token of a created resource in the first entry of a reply. -/
def createdToken? (reply : Json) : Option Json :=
  (reply.first?.bind (·.get? "success")).bind (·.get? "id")

end Reply

end LightBridge
