import LightBridge.Change.Pending

/-!
What can be asked of a pending change before it is committed.
-/

namespace LightBridge.Change

/-- A request to a pending change. -/
inductive Operation where
  | set (setters : List Setter)
  | trim
  | pending

/-- What a pending change answers. -/
inductive Answer where
  /-- The fields to send after each of several setters. -/
  | requests (requests : List Fields)
  | request (request : Fields)
  | pending (path : String) (request : Fields)

/-- The changes after each of several setters, in order. -/
def stages (c : Change) : List Setter → List Change
  | [] => []
  | s :: rest => c.set s :: (c.set s).stages rest

/-- Does what is asked; the change after it, and the answer. -/
def perform (c : Change) : Operation → Change × Answer
  | .set setters =>
    (setters.foldl set c, .requests ((c.stages setters).map (·.request)))
  | .trim => (c.trim, .request c.trim.request)
  | .pending => (c, .pending c.path c.request)

end LightBridge.Change
