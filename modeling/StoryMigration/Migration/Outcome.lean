import StoryMigration.Command.Request
import StoryMigration.Source.Edit
import StoryMigration.Syntax.StringValue

/-!
# Outcomes of a migration

A module that is converted, or left alone with or without a reason, and the failures that leave it with
no outcome at all.
-/

namespace StoryMigration

/-- Why a module with chains is left alone. -/
inductive DiagnosticKind where
  /-- It has a default export already. -/
  | defaultExportConflict
  /-- It has several chains. -/
  | multipleChains
  /-- Its chain has a shape that is not understood. -/
  | unsupportedShape
  deriving DecidableEq, Repr, Inhabited

namespace DiagnosticKind

/-- The name by which reports refer to a reason. -/
def name : DiagnosticKind → String
  | defaultExportConflict => "DEFAULT_EXPORT_CONFLICT"
  | multipleChains => "MULTIPLE_CHAINS"
  | unsupportedShape => "UNSUPPORTED_SHAPE"

/-- The reason of a name. -/
def ofName? : String → Option DiagnosticKind
  | "DEFAULT_EXPORT_CONFLICT" => some defaultExportConflict
  | "MULTIPLE_CHAINS" => some multipleChains
  | "UNSUPPORTED_SHAPE" => some unsupportedShape
  | _ => none

/-- The warning about a module, without its path. -/
def warning : DiagnosticKind → String
  | defaultExportConflict => "ambiguous default export + chain found, skipping"
  | multipleChains => "multiple chains found, manual fix required"
  | unsupportedShape => "unsupported chain shape, skipping"

end DiagnosticKind

/-- A warning about a module that is left alone. -/
structure Diagnostic where
  kind : DiagnosticKind
  path : String
  message : String
  /-- Number of calls that start a chain. -/
  chainCount : Int
  deriving DecidableEq, Repr, Inhabited

/-- The warning of a kind. -/
def Diagnostic.about (kind : DiagnosticKind) (path : String) (chainCount : Nat) : Diagnostic :=
  ⟨kind, path, kind.warning ++ ": '" ++ path ++ "'", chainCount⟩

/-- What became of a module. -/
structure Outcome where
  /-- The source as it was. -/
  before : String
  /-- The source as it is now. -/
  code : String
  /-- Descriptions of the changes. -/
  changes : List Text := []
  diagnostics : List Diagnostic := []
  deriving Repr, Inhabited

namespace Outcome

/-- The source is another one now. -/
def hasChanges (outcome : Outcome) : Bool := outcome.before != outcome.code

/-- The source is left alone for a reason. -/
def isSkipped (outcome : Outcome) : Bool :=
  !outcome.diagnostics.isEmpty && !outcome.hasChanges

end Outcome

/-- Why a migration has no outcome. -/
inductive MigrationError where
  /-- The source does not parse. -/
  | unparsable (path : String) (dialect : Syntax.Dialect)
  /-- The converted source does not parse. -/
  | badResult (path : String)
  /-- A string literal of the source has no value. -/
  | badEscape (error : Syntax.EscapeError)
  /-- The edits cannot be applied. -/
  | badEdit (error : EditError)
  /-- The formatter has no result. -/
  | badCommand (failure : Command.Failure)
  deriving DecidableEq, Repr

namespace MigrationError

/-- How the failure to parse is put into words. -/
def unparsableMessage (path : String) (dialect : Syntax.Dialect) : String :=
  "Could not parse " ++ (if path.isEmpty then "source" else path) ++ " as " ++ dialect.name

/-- How the failure of the converted source to parse is put into words. -/
def badResultMessage (path : String) : String := "Rewritten " ++ path ++ " does not parse"

end MigrationError

end StoryMigration
