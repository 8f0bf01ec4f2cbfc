import StoryMigration.Migration.Options
import StoryMigration.Story.Metadata
import StoryMigration.Story.NamePool

/-!
# Writing a chain as exports

The default export with what all stories share, and one export for each story, with what belongs to the
story alone assigned to a property of it.
-/

namespace StoryMigration
namespace Story

open Syntax

/-- A story with the identifier it is exported under. -/
structure NamedEntry where
  entry : Entry
  identifier : String

/-- Whether the identifier gives back the story's display name. -/
def NamedEntry.nameIsRedundant (story : NamedEntry) : Bool :=
  Text.ofString (StoryName.displayName story.identifier.toList) == story.entry.name

/-- Stories with unique identifiers that no name in use equals. -/
def named (inUse : NamePool) (stories : List Entry) : List NamedEntry :=
  (stories.zip (inUse.claimStories (stories.map fun story => story.name.legible))).map
    fun pair => ⟨pair.1, pair.2⟩

variable (options : Options) (m : Module)

/-- A member of a generated object literal, with its lines at a level. -/
def memberEntry (level : Int) (member : Member) : StoryMigration.Entry :=
  let text := options.layout.node m member.node level
  ⟨if member.spread then "..." ++ text else text, member.isComment⟩

/-- An object literal of members. -/
def memberObject (members : List Member) : String :=
  options.layout.object (members.map (memberEntry options m 2)) 1

/-- The default export. -/
def defaultExport (metadata : Metadata) : String :=
  let layout := options.layout
  let title := Layout.property "title" (layout.string metadata.title)
  let decorators :=
    if metadata.decorators.isEmpty then []
    else
      [Layout.property "decorators"
        (layout.array (metadata.decorators.map fun node => layout.node m node 2) 1)]
  let parameters :=
    if metadata.parameters.isEmpty then []
    else [Layout.property "parameters" (memberObject options m metadata.parameters)]
  let excluded :=
    if metadata.excluded.isEmpty then []
    else [Layout.property "excludeStories" (layout.array (metadata.excluded.map layout.string) 1)]
  let entries := (title :: decorators ++ parameters ++ excluded).map fun text =>
    (⟨text, false⟩ : StoryMigration.Entry)
  Layout.statement ("export default " ++ layout.object entries 0) (metadata.comments.map m.text)

/-- What belongs to a story alone, as members of an object. -/
def ownMembers (story : NamedEntry) : List String :=
  let layout := options.layout
  let name :=
    if options.preserveNames && !story.nameIsRedundant then
      [Layout.property "name" (layout.string story.entry.name)]
    else []
  let parameters :=
    match story.entry.parameters with
    | none => []
    | some (.members members) => [Layout.property "parameters" (memberObject options m members)]
    | some (.asWritten node) => [Layout.property "parameters" (layout.node m node 1)]
  let decorators :=
    match story.entry.decorators with
    | none => []
    | some node => [Layout.property "decorators" (layout.node m node 1)]
  name ++ parameters ++ decorators

/-- The export of a story. -/
def storyExport (story : NamedEntry) : String :=
  let layout := options.layout
  let render := layout.node m story.entry.render 0
  let declaration := Layout.statement ("export const " ++ story.identifier ++ " = " ++ render)
    (story.entry.comments.map m.text)
  match ownMembers options m story with
  | [] => declaration
  | members =>
    let value := layout.object (members.map fun text => ⟨text, false⟩) 0
    declaration ++ "\n"
      ++ Layout.statement (story.identifier ++ "." ++ options.storyProperty ++ " = " ++ value) []

/-- The default export and the stories, with a blank line between two. -/
def assembled (metadata : Metadata) (stories : List NamedEntry) : String :=
  "\n\n".intercalate (defaultExport options m metadata :: stories.map (storyExport options m))

end Story
end StoryMigration
