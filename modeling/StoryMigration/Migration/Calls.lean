import StoryMigration.Migration.Catalogue
import StoryMigration.Migration.Override

/-!
# Calls with keyword arguments

The three ways to ask for a conversion, with all arguments that they take: a path, options as a whole,
and fields. Without options as a whole the fields are checked; with them, the fields replace some of
them unchecked. A way takes its own parameters by position, so that no argument may have their names.
-/

namespace StoryMigration

/-- Why a call with keyword arguments has no outcome. -/
inductive CallError where
  /-- With fields alone. -/
  | apply (error : ApplyError)
  /-- With options as a whole. -/
  | override (error : OverrideError)
  deriving DecidableEq, Repr

namespace Catalogue

/-- The first of some parameters that an argument has the name of. -/
def takenTwice? (parameters : List String) (arguments : Fields) : Option String :=
  parameters.find? fun name => (arguments.find? name).isSome

/-- Fails if an argument has the name of one of the parameters. -/
def unlessTaken {α : Type} (parameters : List String) (arguments : Fields)
    (result : Except CallError α) : Except CallError α :=
  match takenTwice? parameters arguments with
  | some name => .error (.apply (.unexpectedArgument name))
  | none => result

/-- Converts a source text, with options as a whole and fields that replace some of them. -/
def convertReplaced (host : Command.Host) (source : String) (options : Options) (arguments : Fields)
    (asked : Option Syntax.Dialect := none) : Except CallError Outcome :=
  (Migration.convertOverridden host options arguments (Transformer.pathOf arguments) source
    asked).mapError .override

/-- A conversion with keyword arguments. -/
def convertWith (host : Command.Host) (source : String) (arguments : Fields) :
    Option Options → Except CallError Outcome
  | some options => convertReplaced host source options arguments
  | none =>
    match Options.ofFields arguments with
    | .faulty complaints => .error (.apply (.invalid complaints))
    | .ok options =>
      (Migration.convert host options (Transformer.pathOf arguments) source).mapError
        fun e => .apply (.migration e)

/-- The transformer of a name with keyword arguments. The dialect is the one that the path picks. -/
def applyWith (catalogue : Catalogue) (host : Command.Host) (name source : String)
    (arguments : Fields) : Option Options → Except CallError Outcome
  | none => (catalogue.apply host name source arguments).mapError .apply
  | some options =>
    match catalogue.get name with
    | .error e => .error (.apply e)
    | .ok .importRemoval => .error (.apply (.unexpectedArgument "options"))
    | .ok .chainsToExports =>
      convertReplaced host source options arguments
        (some (Path.ofString (Transformer.pathOf arguments)).dialect)

/-- One of the two standard changes with keyword arguments, by the name of its function. -/
def applyFunctionWith (host : Command.Host) (name source : String)
    (arguments : Fields) : Option Options → Except CallError Outcome
  | none => (applyFunction host name source arguments).mapError .apply
  | some options =>
    match standard.find? name with
    | none => .error (.apply (.unknownFunction name))
    | some .importRemoval => .error (.apply (.unexpectedArgument "options"))
    | some .chainsToExports => convertReplaced host source options arguments

/-- Asks for a conversion directly. -/
def convertCall (host : Command.Host) (source : String) (options : Option Options)
    (arguments : Fields) : Except CallError Outcome :=
  unlessTaken ["source_code"] arguments (convertWith host source arguments options)

/-- Asks for the transformer of a name. -/
def applyCall (catalogue : Catalogue) (host : Command.Host) (name source : String)
    (options : Option Options) (arguments : Fields) : Except CallError Outcome :=
  unlessTaken ["source_code", "transformer_name", "name"] arguments
    (catalogue.applyWith host name source arguments options)

/-- Asks for a standard change by the name of its function. -/
def applyFunctionCall (host : Command.Host) (name source : String)
    (options : Option Options) (arguments : Fields) : Except CallError Outcome :=
  unlessTaken ["source_code", "name"] arguments
    (applyFunctionWith host name source arguments options)

end Catalogue
end StoryMigration
