import LightBridge.Json.Basic
import LightBridge.Resource.Id

/-!
Lists of light ids.

A bridge reports the members of a group or scene as an array of texts. Numbers are accepted as
well, and what denotes no id is skipped. Lists are always written as texts, and what is written
reads back as the same list.
-/

namespace LightBridge.LightIds

/-- The id that one item of a reported list denotes. -/
def ofItem? : Json → Option Int32
  | .string s => readInt32? s
  | .number n => n.int64?.bind int32?
  | _ => none

/-- The ids in a reported list; what is no array lists none. -/
def ofJson (v : Json) : List Int32 := (v.array?.getD []).filterMap ofItem?

/-- The ids in the list reached by following field names. -/
def reportedAt (v : Json) (path : List String) : List Int32 := ((v.at? path).map ofJson).getD []

/-- A list of ids as it is written. -/
def toJson (ids : List Int32) : Json := .array (ids.map fun id => .string (int32Text id))

theorem ofItem?_text (id : Int32) : ofItem? (.string (int32Text id)) = some id :=
  readInt32?_int32Text id

theorem ofJson_toJson (ids : List Int32) : ofJson (toJson ids) = ids := by
  have hitem : (ofItem? ∘ fun id => .string (int32Text id)) = some := funext ofItem?_text
  show (ids.map fun id => .string (int32Text id)).filterMap ofItem? = ids
  rw [List.filterMap_map, hitem, List.filterMap_some]

end LightBridge.LightIds
