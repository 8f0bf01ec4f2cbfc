import StoryMigration.Migration.OptionFields
import StoryMigration.Migration.Convert

/-!
# Changes by name

A catalogue of the changes that can be asked for by name, with their arguments as loosely typed
fields. Changes may be entered under further names. A name leads to what was entered under it last.
-/

namespace StoryMigration

/-- A change of a module that can be asked for by name. -/
inductive Transformer where
  /-- Chains become exports. -/
  | chainsToExports
  /-- An unused import of the registration function goes. -/
  | importRemoval
  deriving DecidableEq, Repr, Inhabited

/-- What a transformer calls itself. -/
def Transformer.name : Transformer → String
  | chainsToExports => "StoriesOfToCSF"
  | importRemoval => "RemoveLegacyImport"

/-- Names and the transformers entered under them. -/
structure Catalogue where
  entries : List (String × Transformer)
  deriving Repr, Inhabited

/-- Why a named change has no outcome. -/
inductive ApplyError where
  /-- No transformer of the catalogue has the name. -/
  | unknownTransformer (name : String) (available : List String)
  /-- No function has the name. -/
  | unknownFunction (name : String)
  /-- Arguments are not what they are meant to be. -/
  | invalid (complaints : List Complaint)
  /-- An argument has a name that is not known. -/
  | unexpectedArgument (name : String)
  | migration (error : MigrationError)
  deriving DecidableEq, Repr

namespace Catalogue

/-- The two changes under their own names. -/
def standard : Catalogue :=
  ⟨[("storiesof_to_csf", .chainsToExports), ("remove_legacy_import", .importRemoval)]⟩

/-- All names, in the order in which they were first entered. -/
def names (catalogue : Catalogue) : List String := catalogue.entries.map (·.1)

/-- The transformer of a name. -/
def find? (catalogue : Catalogue) (name : String) : Option Transformer :=
  catalogue.entries.lookup name

/-- The catalogue with a transformer entered under a name. -/
def register (catalogue : Catalogue) (name : String) (transformer : Transformer) : Catalogue :=
  if (catalogue.find? name).isSome then
    ⟨catalogue.entries.map fun entry => if entry.1 == name then (name, transformer) else entry⟩
  else ⟨catalogue.entries ++ [(name, transformer)]⟩

/-- The transformer of a name, which has to be there. -/
def get (catalogue : Catalogue) (name : String) : Except ApplyError Transformer :=
  match catalogue.find? name with
  | some transformer => .ok transformer
  | none => .error (.unknownTransformer name catalogue.names)

end Catalogue

/-- How the absence of a transformer is put into words. -/
def ApplyError.unknownTransformerMessage (name : String) (available : List String) : String :=
  "Unknown transformer: " ++ name ++ ". Available: " ++ ", ".intercalate available

/-- How the absence of a function is put into words. -/
def ApplyError.unknownFunctionMessage (name : String) : String := "Unknown transform: " ++ name

namespace Transformer

/-- The path that is reported if none is given. -/
def unknownPath : String := "<unknown>"

/-- The path among some arguments. -/
def pathOf (arguments : Fields) : String :=
  match arguments.find? "path" with
  | some (.text path) => path
  | _ => unknownPath

/-- The text of an argument. -/
def textOr (arguments : Fields) (name default : String) : String :=
  match arguments.find? name with
  | some value => Options.plainText value
  | none => default

/-- A transformer with its arguments. -/
inductive Configured where
  | chainsToExports (options : Options)
  | importRemoval (registration : Chain.Registration)
  deriving Repr

/-- A transformer with its arguments read. Removing an import knows three arguments only, and takes them
as they are. -/
def configure (arguments : Fields) : Transformer → Except ApplyError Configured
  | chainsToExports =>
    match Options.ofFields arguments with
    | .ok options => .ok (.chainsToExports options)
    | .faulty complaints => .error (.invalid complaints)
  | importRemoval =>
    let known := ["path", "legacy_function_name", "legacy_package_prefix"]
    match arguments.filter (fun argument => !known.contains argument.1) |>.head? with
    | some argument => .error (.unexpectedArgument argument.1)
    | none =>
      let standard : Chain.Registration := {}
      .ok (.importRemoval
        { functionName := textOr arguments "legacy_function_name" standard.functionName
          packageStart := textOr arguments "legacy_package_prefix" standard.packageStart })

/-- What a configured transformer does to a source text in a dialect. -/
def Configured.run (host : Command.Host) (dialect : Syntax.Dialect) (path source : String) :
    Configured → Except MigrationError Outcome
  | chainsToExports options =>
    Migration.applyTo dialect path source (Migration.transform host options path)
  | importRemoval registration =>
    Migration.applyTo dialect path source (Migration.pruneImport registration)

/-- The dialect a configured transformer asks for. -/
def Configured.dialect? : Configured → Option Syntax.Dialect
  | chainsToExports options => options.dialect
  | importRemoval _ => none

end Transformer

namespace Catalogue

/-- Applies the transformer of a name. The dialect is the one asked for or the one the path picks, also
if the options name another one. -/
def apply (catalogue : Catalogue) (host : Command.Host) (name source : String)
    (arguments : Fields) (asked : Option Syntax.Dialect := none) : Except ApplyError Outcome := do
  let configured ← (← catalogue.get name).configure arguments
  let path := Transformer.pathOf arguments
  (configured.run host (Migration.dialectFor asked path) path source).mapError .migration

/-- Applies one of the two standard changes. Here the dialect may also come from the options. -/
def applyFunction (host : Command.Host) (name source : String) (arguments : Fields)
    (asked : Option Syntax.Dialect := none) : Except ApplyError Outcome := do
  match standard.find? name with
  | none => throw (.unknownFunction name)
  | some transformer =>
    let configured ← transformer.configure arguments
    let path := Transformer.pathOf arguments
    let dialect := Migration.dialectFor (asked <|> configured.dialect?) path
    (configured.run host dialect path source).mapError .migration

/-- A step of a sequence of changes. -/
structure Step where
  name : String
  arguments : Fields := []
  /-- A text put behind the code before the next step. -/
  appended : String := ""
  deriving Repr

/-- The outcomes of some steps, each of which works on the code that the last successful step left. -/
def applyAll (catalogue : Catalogue) (host : Command.Host) (source : String) :
    List Step → List (Except ApplyError Outcome)
  | [] => []
  | step :: rest =>
    match catalogue.apply host step.name source step.arguments with
    | .ok outcome => .ok outcome :: applyAll catalogue host (outcome.code ++ step.appended) rest
    | .error e => .error e :: applyAll catalogue host source rest

end Catalogue
end StoryMigration
