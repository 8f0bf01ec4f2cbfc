import StoryMigration.Files.Path
import StoryMigration.Migration.Outcome
import StoryMigration.Source.ImportRemoval
import StoryMigration.Source.Residual
import StoryMigration.Story.Assembly

/-!
# Converting a module

A module with exactly one chain of a supported shape and without a default export is converted; every
other module is left alone, with a warning if it has chains. The statements of the chain go, the
generated exports stand where the last of them stood, and the import of the registration function goes
if nothing else refers to it. A module is either converted or returned as it is.
-/

namespace StoryMigration
namespace Migration

open Syntax Chain

/-- Why a module is left alone, if there is a reason to warn about. -/
def veto (located : Located) : Option DiagnosticKind :=
  if located.roots.isEmpty then none
  else if located.exports.hasDefault then some .defaultExportConflict
  else if 1 < located.roots.length then some .multipleChains
  else if !located.unsupported.isEmpty then some .unsupportedShape
  else none

/-- The fragment to convert, if the module is to be converted. -/
def chosen (located : Located) : Option Fragment :=
  if located.roots.isEmpty || (veto located).isSome then none else located.fragments.head?

/-- The edit that removes the import of the registration function, unless something outside the
fragment refers to it. -/
def importEdit (m : Module) (located : Located) (excluded : List Node) : Option Edit := do
  let specifier ← located.specifier
  let statement ← ImportRemoval.statementOf? m specifier
  if ImportRemoval.references m located.localName (statement :: excluded) = 0 then
    some (ImportRemoval.edit m statement specifier)
  else none

/-- The generated code of a fragment and the number of its stories. -/
def generated (options : Options) (m : Module) (located : Located) (fragment : Fragment) :
    Except EscapeError (String × Nat) := do
  let metadata ← Story.Metadata.ofFragment m fragment located.exports.named
  let entries ← Story.ofFragment m fragment
  let stories := Story.named (.ofList (m.identifiers m.tree)) entries
  let newline := Newline.ofText m.source.toList
  pure (newline.spread (Story.assembled options m metadata stories), stories.length)

/-- The edits that put generated code in place of a fragment. -/
def fragmentEdits (m : Module) (fragment : Fragment) (code : String) : List Edit :=
  .replacing fragment.anchor.start fragment.anchor.stop code
    :: fragment.statements.dropLast.map fun statement => LineSpan.removal m statement true

/-- The description of a removed import. -/
def importChange (options : Options) : Text :=
  .ofString ("Removed import of '" ++ options.registration.functionName ++ "'")

/-- The description of a converted chain. -/
def chainChange (count : Nat) (title : Text) : Text :=
  .ofString ("Converted " ++ toString count ++ " '") ++ title
    ++ .ofString "' stories to named exports"

/-- The converted source of a module with a chosen fragment, and the descriptions of the changes. -/
def converted (host : Command.Host) (options : Options) (path : String) (m : Module)
    (located : Located) (fragment : Fragment) : Except MigrationError (String × List Text) := do
  let (code, count) ← (generated options m located fragment).mapError .badEscape
  let edit? := importEdit m located fragment.statements
  let edits := fragmentEdits m fragment code ++ edit?.toList
  let spliced ← (Edit.apply m.bytes edits).mapError .badEdit
  let stripped ←
    if options.stripResidualRoots then
      (Residual.strip m.dialect located.localName spliced).mapError .badEdit
    else pure spliced
  let formatted ← (Command.prettify host options.formatter stripped path options.layout
    (options.formatterTimeout * 1000)).mapError .badCommand
  pure (formatted,
    (edit?.map fun _ => importChange options).toList ++ [chainChange count fragment.title])

/-- Converts a module, or leaves it alone. -/
def transform (host : Command.Host) (options : Options) (path : String) (m : Module) :
    Except MigrationError Outcome := do
  let located ← (locate m options.registration).mapError .badEscape
  match veto located with
  | some kind =>
    pure
      { before := m.source
        code := m.source
        diagnostics := [.about kind path located.roots.length] }
  | none =>
    match chosen located with
    | none => pure { before := m.source, code := m.source }
    | some fragment =>
      let (code, changes) ← converted host options path m located fragment
      pure { before := m.source, code, changes }

/-- Removes the import of the registration function if nothing refers to it. -/
def pruneImport (registration : Registration) (m : Module) : Except MigrationError Outcome := do
  let located ← (locate m registration).mapError .badEscape
  match importEdit m located [] with
  | none => pure { before := m.source, code := m.source }
  | some edit =>
    let code ← (Edit.apply m.bytes [edit]).mapError .badEdit
    pure
      { before := m.source
        code
        changes := [.ofString ("Removed unused import of '" ++ registration.functionName ++ "'")] }

/-- Applies a change to a source text. Both the source and, if it is another one, the result have
to parse. -/
def applyTo (dialect : Dialect) (path source : String)
    (change : Module → Except MigrationError Outcome) : Except MigrationError Outcome := do
  match Module.parse? dialect source with
  | none => throw (.unparsable path dialect)
  | some m =>
    let outcome ← change m
    let outcome := { outcome with before := source }
    if outcome.hasChanges && (Module.parse? dialect outcome.code).isNone then
      throw (.badResult path)
    pure outcome

/-- The dialect of a source: the one asked for, or the one its path picks. -/
def dialectFor (asked : Option Dialect) (path : String) : Dialect :=
  asked.getD (Path.ofString path).dialect

/-- Converts the chain of a source text into exports. -/
def convert (host : Command.Host) (options : Options) (path source : String)
    (asked : Option Dialect := none) : Except MigrationError Outcome :=
  applyTo (dialectFor (asked <|> options.dialect) path) path source (transform host options path)

/-- The source of a file after its conversion, and the warnings about it. -/
def transformFile (host : Command.Host) (options : Options) (path source : String)
    (asked : Option Dialect := none) : Except MigrationError (String × List Diagnostic) := do
  let outcome ← convert host options path source asked
  pure (outcome.code, outcome.diagnostics)

/-- Removes an unused import of the registration function from a source text. -/
def removeImport (registration : Registration) (path source : String)
    (asked : Option Dialect := none) : Except MigrationError Outcome :=
  applyTo (dialectFor asked path) path source (pruneImport registration)

end Migration
end StoryMigration
