import StoryMigration.Chain.Locate
import StoryMigration.Story.Layout

/-!
# Options of a migration

Everything that can be chosen about how one module is converted.
-/

namespace StoryMigration

/-- Options of the conversion of a module. -/
structure Options where
  /-- The function that starts chains. -/
  registration : Chain.Registration := {}
  /-- How generated code is written. -/
  layout : Layout := {}
  /-- The property of a story's export that holds what belongs to the story alone. -/
  storyProperty : String := "story"
  /-- Display names that the export's name does not give back are written down. -/
  preserveNames : Bool := false
  /-- Residual roots are stripped from the converted text. -/
  stripResidualRoots : Bool := false
  /-- The formatter command and its arguments; none if empty. -/
  formatter : List String := []
  /-- Seconds the formatter may take. -/
  formatterTimeout : Int := 30
  /-- The dialect, if it is not to be picked by the path. -/
  dialect : Option Syntax.Dialect := none
  deriving Repr, Inhabited

end StoryMigration
