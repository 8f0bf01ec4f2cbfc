import StoryMigration.Batch.Run
import StoryMigration.CommandLine.Arguments
import StoryMigration.Config.Settings
import StoryMigration.Files.Search
import StoryMigration.Log.Record
import StoryMigration.Migration.Catalogue

/-!
# The command line program

What the program prints, which files it leaves and with which exit code it ends, from its arguments, the
environment and the file tree. A trial run leaves all files as they are.
-/

namespace StoryMigration
namespace CommandLine

/-- Why the program breaks off. -/
inductive Crash where
  | settings (error : Config.SettingsError)
  /-- The settings name no level of log records. -/
  | unknownLevel (name : String)
  | badFormatter (error : Config.WordError)
  | invalidOptions (complaints : List Complaint)
  | search (error : SearchError)
  /-- The file of variables cannot be read. -/
  | file (error : FileError)
  deriving DecidableEq, Repr

/-- How the program ends. -/
structure Ending where
  exitCode : Nat
  /-- Lines for the standard output; tables and differences are left out. -/
  lines : List String := []
  /-- Warnings and failures are to be shown. -/
  needsAttention : Bool := false
  reports : Batch.Reports := []
  crash : Option Crash := none
  /-- The files behind the run. -/
  tree : FileTree
  deriving Inhabited

/-- The file of variables. -/
def variablesFile : String := ".env"

/-- The settings of a run: those given, the environment, and the file of variables if there is one. -/
def settingsFor (tree : FileTree) (environment : List (String × String)) (given : Fields) :
    Except Crash Config.Settings := do
  let path := Path.ofString variablesFile
  let text ←
    if tree.isFile path then some <$> (tree.read variablesFile).mapError .file else pure none
  (Config.Settings.load given (environment.map fun (name, value) => (name, some value)) text).mapError
    .settings

/-- What the arguments replace among the settings. -/
def replacements (asked : MigrateArguments) : Except Crash Fields := do
  let field (name : String) (value : Option Value) : Fields := (value.map (name, ·)).toList
  let words ← (asked.formatter.mapM Config.wordsOf).mapError .badFormatter
  pure (field "quote_style" (asked.quoteStyle.map .text)
    ++ field "tab_width" (asked.tabWidth.map .int)
    ++ field "trailing_comma" (asked.trailingComma.map .bool)
    ++ field "preserve_story_names" (asked.preserveNames.map .bool)
    ++ field "prettier_command" (words.map fun ws => .list (ws.map .text)))

/-- The options of a run. -/
def optionsFor (settings : Config.Settings) (asked : MigrateArguments) : Except Crash Options := do
  let fields ← replacements asked
  match Options.ofSettings settings fields with
  | .ok options => pure options
  | .error (.invalid complaints) => throw (.invalidOptions complaints)
  | .error (.badFormatter e) => throw (.badFormatter e)

/-- How an unknown quote style is put into words. -/
def badQuoteMessage (style : String) : String := "Invalid quote style: " ++ style

/-- How the absence of files is put into words. -/
def noFilesMessage : String := "No story files found."

/-- The host of formatters in a tree. -/
def hostFor (settings : Config.Settings) (environment : List (String × String)) (tree : FileTree) :
    Command.Host :=
  Command.Machine.host { tree, environment, timeout := settings.formatterTimeout * 1000 }

/-- A migration, up to the point where the program breaks off. -/
def runMigrate (tree : FileTree) (environment : List (String × String)) (asked : MigrateArguments) :
    Except Crash Ending := do
  let settings ← settingsFor tree environment []
  if !asked.verbose && (Log.threshold? settings.logLevel).isNone then
    throw (.unknownLevel settings.logLevel)
  let badQuote := asked.quoteStyle.filter fun style => (QuoteStyle.ofName? style).isNone
  match badQuote with
  | some style => pure { exitCode := 2, lines := [badQuoteMessage style], tree }
  | none =>
    let options ← optionsFor settings asked
    let patterns := if asked.patterns.isEmpty then settings.patterns else asked.patterns
    let paths := asked.paths.map fun path => (Path.ofString path).toString
    match Search.expand tree paths patterns Search.standardExcludes with
    | .error (.file (.noPath path)) =>
      pure { exitCode := 2, lines := [(FileError.noPath path).message], tree }
    | .error e => throw (.search e)
    | .ok [] => pure { exitCode := 0, lines := [noFilesMessage], tree }
    | .ok files =>
      let (reports, after) := Batch.migrateFiles (hostFor settings environment) options
        { write := !asked.isTrial, backup := asked.backup } tree files
      pure
        { exitCode := if Batch.Reports.hasFailures reports then 1 else 0
          lines := [Batch.Reports.summary reports asked.isTrial]
          needsAttention := Batch.Reports.needAttention reports
          reports
          tree := after }

/-- Runs the program. -/
def run (tree : FileTree) (environment : List (String × String)) (arguments : List String) : Ending :=
  match Invocation.read arguments with
  | .misuse => { exitCode := 2, tree }
  | .help => { exitCode := 0, tree }
  | .transforms => { exitCode := 0, lines := Catalogue.standard.names, tree }
  | .migrate asked =>
    match runMigrate tree environment asked with
    | .ok ending => ending
    | .error crash => { exitCode := 1, crash := some crash, tree }

end CommandLine
end StoryMigration
