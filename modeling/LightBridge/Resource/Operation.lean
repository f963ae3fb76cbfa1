import LightBridge.Resource.Groups

/-!
What can be asked of a collection.

The collection of groups answers some questions in its own way, since it has group 0.
-/

namespace LightBridge

namespace Collection

/-- A question to a collection, or a request to it. -/
inductive Operation (ι : Type) where
  | getAll
  | get (id : ι)
  | has (id : ι)
  | hasCached (id : ι)
  | isMaterialized (id : ι)
  | remove (id : ι)
  | create (parameters : Json)
  | refresh
  | path
  | username
  | describe

/-- The same operation on other ids. -/
def Operation.map {ι κ : Type} (f : ι → κ) : Operation ι → Operation κ
  | .getAll => .getAll
  | .get id => .get (f id)
  | .has id => .has (f id)
  | .hasCached id => .hasCached (f id)
  | .isMaterialized id => .isMaterialized (f id)
  | .remove id => .remove (f id)
  | .create parameters => .create parameters
  | .refresh => .refresh
  | .path => .path
  | .username => .username
  | .describe => .describe

/-- What a collection answers. -/
inductive Answer (ι : Type) where
  | nothing
  | flag (value : Bool)
  | text (value : String)
  | id (id : ι)
  | entry (entry : Resource ι)
  | entries (entries : List (Resource ι))

variable {ι : Type} [DecidableEq ι] [ResourceId ι]

/-- An operation that reads from a collection and leaves it as it is. -/
def reading {α : Type} (f : Collection ι → Act α) : ActOn (Collection ι) α := do
  let l ← ActOn.current
  f l

/-- Does what is asked. -/
def perform : Operation ι → ActOn (Collection ι) (Answer ι)
  | .getAll => .entries <$> getAll
  | .get id => .entry <$> get id
  | .has id => .flag <$> reading (·.exists? id)
  | .hasCached id => .flag <$> reading (·.existsCached? id)
  | .isMaterialized id => reading fun l => pure (.flag (l.isMaterialized id))
  | .remove id => .flag <$> remove id
  | .create parameters => .id <$> reading (·.create parameters)
  | .refresh => reading fun l => do l.cache.refresh; pure .nothing
  | .path => reading fun l => pure (.text l.path)
  | .username => reading fun l => pure (.text l.channel.username)
  | .describe => reading fun l => pure (.text l.describe)

end Collection

/-- Does what is asked of the collection of groups. -/
def Groups.perform : Collection.Operation Int32 → ActOn (Collection Int32) (Collection.Answer Int32)
  | .get id => .entry <$> Groups.get id
  | .has id => .flag <$> Collection.reading (Groups.exists? · id)
  | .hasCached id => .flag <$> Collection.reading (Groups.existsCached? · id)
  | operation => Collection.perform operation

end LightBridge
