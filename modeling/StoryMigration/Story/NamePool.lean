import StoryMigration.Story.Name

/-!
# Names in use

The names a module binds or mentions, and those given out since. A name is made unique with
underscores in front. `claim` gives out a name that was not in use.
-/

namespace StoryMigration

/-- A set of names. -/
structure NamePool where
  /-- The names, each once. -/
  names : List String
  deriving Repr, Inhabited

namespace NamePool

/-- Adds a name. -/
def insert (pool : NamePool) (name : String) : NamePool :=
  if pool.names.contains name then pool else ⟨pool.names ++ [name]⟩

/-- The set of some names. -/
def ofList (names : List String) : NamePool := names.foldl insert ⟨[]⟩

/-- Whether a name is in use. -/
def contains (pool : NamePool) (name : String) : Bool := pool.names.contains name

/-- Number of names in use. -/
def size (pool : NamePool) : Nat := pool.names.length

/-- The candidate with as few underscores in front as make it unused, at most `count`. -/
def fresh (pool : NamePool) : Nat → String → String
  | 0, candidate => candidate
  | count + 1, candidate =>
    if pool.contains candidate then fresh pool count ("_" ++ candidate) else candidate

/-- A unique name made from a candidate, and the pool with it. Of `size + 1` different names one is
not in use. -/
def claim (pool : NamePool) (candidate : String) : String × NamePool :=
  let name := pool.fresh pool.size candidate
  (name, pool.insert name)

/-- A unique export identifier for a display name. -/
def claimStory (pool : NamePool) (name : List Char) : String × NamePool :=
  pool.claim (StoryName.identifierOf name)

/-- Unique export identifiers for display names, in their order. -/
def claimStories (pool : NamePool) : List (List Char) → List String
  | [] => []
  | name :: rest =>
    match pool.claimStory name with
    | (identifier, next) => identifier :: claimStories next rest

end NamePool
end StoryMigration
