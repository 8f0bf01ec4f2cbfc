import StoryMigration.Migration.OptionFields
import StoryMigration.Migration.Convert

/-!
# Migration with replaced options

Options that were checked can have fields replaced that are not. What is wrong with those shows only
where they are used. A module that is left alone does not show a tab width that no number of spaces
comes of.
-/

namespace StoryMigration

/-- Why a migration with replaced options has no outcome. -/
inductive OverrideError where
  /-- There is no dialect of the name. -/
  | unknownDialect (name : String)
  /-- No number of spaces comes of the tab width. -/
  | unusableWidth
  | migration (error : MigrationError)
  deriving DecidableEq, Repr

namespace Migration

/-- Whether code has been generated on the way to an outcome or to its failure. -/
def hasGenerated : Except MigrationError Outcome → Bool
  | .ok outcome => !outcome.changes.isEmpty
  | .error (.badResult _) => true
  | .error (.badEdit _) => true
  | .error (.badCommand _) => true
  | .error (.unparsable _ _) => false
  | .error (.badEscape _) => false

/-- Converts the chain of a source text into exports, with fields of the options replaced. The dialect
asked for goes before that of the options. -/
def convertOverridden (host : Command.Host) (options : Options) (overrides : Fields)
    (path source : String) (asked : Option Syntax.Dialect := none) :
    Except OverrideError Outcome :=
  match asked, Options.unknownDialect? overrides with
  | none, some name => .error (.unknownDialect name)
  | _, _ =>
    let result := convert host (options.overridden overrides) path source asked
    if Options.hasUnusableWidth overrides && hasGenerated result then .error .unusableWidth
    else result.mapError .migration

end Migration
end StoryMigration
