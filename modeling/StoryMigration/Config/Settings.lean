import StoryMigration.Config.EnvFile
import StoryMigration.Config.Words
import StoryMigration.Data.Json
import StoryMigration.Migration.OptionFields

/-!
# Settings

Settings come from four places: what is given directly counts most, then the environment, then a file of
variables, then the defaults. Variables are named after the settings, with a common beginning and in
letters of either case. A variable in the file that names no setting is a fault; in the environment it
belongs to other programs.
-/

namespace StoryMigration
namespace Config

/-- Settings of the program. -/
structure Settings where
  registration : Chain.Registration := {}
  layout : Layout := {}
  storyProperty : String := "story"
  preserveNames : Bool := false
  stripResidualRoots : Bool := false
  /-- The formatter command line; empty for none. -/
  formatter : String := ""
  /-- Seconds the formatter may take. -/
  formatterTimeout : Int := 30
  /-- Patterns of story files in directories. -/
  patterns : List String :=
    ["*.story.js", "*.story.jsx", "*.story.ts", "*.story.tsx",
      "*.stories.js", "*.stories.jsx", "*.stories.ts", "*.stories.tsx"]
  /-- Files that may be migrated at the same time. -/
  workers : Int := 4
  logLevel : String := "INFO"
  jsonLogs : Bool := false
  deriving Repr, Inhabited

/-- Why there are no settings. -/
inductive SettingsError where
  /-- Values that are not what they are meant to be. -/
  | invalid (complaints : List Complaint)
  /-- A variable that has to be written as JSON is not. -/
  | unreadable (setting : String)
  deriving DecidableEq, Repr

namespace Settings

/-- How the names of variables begin, in lower case. -/
def variableStart : String := "csfmod_"

/-- The setting that is written as JSON in variables. -/
def listName : String := "story_patterns"

/-- The names of all settings. -/
def names : List String :=
  ["legacy_function_name", "legacy_package_prefix", "quote_style", "trailing_comma", "tab_width",
    "story_annotation_property", "preserve_story_names", "strip_residual_roots", "prettier_command",
    "formatter_timeout", listName, "max_workers", "log_level", "json_logs"]

/-- Settings as their fields ask for; fields of other names are faults. -/
def check (fields : Fields) : Checked Settings :=
  let standard : Settings := {}
  let read :=
    Settings.mk
      <$> Options.readRegistration fields
      <*> Options.readLayout fields
      <*> fields.get "story_annotation_property" standard.storyProperty Value.asText
      <*> fields.get "preserve_story_names" standard.preserveNames Value.asBoolean
      <*> fields.get "strip_residual_roots" standard.stripResidualRoots Value.asBoolean
      <*> fields.get "prettier_command" standard.formatter Value.asText
      <*> fields.get "formatter_timeout" standard.formatterTimeout Value.asInteger
      <*> fields.get listName standard.patterns (Value.asList Value.asText)
      <*> fields.get "max_workers" standard.workers (fun value => value.asInteger.between 1 none)
      <*> fields.get "log_level" standard.logLevel Value.asText
      <*> fields.get "json_logs" standard.jsonLogs Value.asBoolean
  (read.both (fields.only names)).map (·.1)

/-- Settings as fields. -/
def toFields (settings : Settings) : Fields :=
  [("legacy_function_name", .text settings.registration.functionName),
    ("legacy_package_prefix", .text settings.registration.packageStart),
    ("quote_style", .text settings.layout.quoteStyle.name),
    ("trailing_comma", .bool settings.layout.trailingComma),
    ("tab_width", .int settings.layout.tabWidth),
    ("story_annotation_property", .text settings.storyProperty),
    ("preserve_story_names", .bool settings.preserveNames),
    ("strip_residual_roots", .bool settings.stripResidualRoots),
    ("prettier_command", .text settings.formatter),
    ("formatter_timeout", .int settings.formatterTimeout),
    (listName, .list (settings.patterns.map .text)),
    ("max_workers", .int settings.workers),
    ("log_level", .text settings.logLevel),
    ("json_logs", .bool settings.jsonLogs)]

/-- Variables with names in lower case; of several that become the same, the last one counts. -/
def lowered (bindings : Bindings) : Bindings :=
  bindings.foldl
    (fun done binding =>
      let name := binding.1.toLower
      if done.any (·.1 == name) then
        done.map fun other => if other.1 == name then (name, binding.2) else other
      else done ++ [(name, binding.2)])
    []

/-- What a variable says of a setting, if it says something. -/
def fieldOf (bindings : Bindings) (name : String) : Except SettingsError Fields :=
  match EnvFile.lookup? bindings (variableStart ++ name) with
  | some (some text) =>
    if name == listName then
      match Json.read? text with
      | some .null => .ok []
      | some value => .ok [(name, value)]
      | none => .error (.unreadable name)
    else .ok [(name, .text text)]
  | _ => .ok []

/-- What variables say of the settings. -/
def fieldsOf (bindings : Bindings) : Except SettingsError Fields := do
  pure (← names.mapM (fieldOf bindings)).flatten

/-- A variable that belongs to a setting, or could: the setting that is written as JSON may be spread
over variables with longer names. -/
def isKnown (name : String) : Bool :=
  names.contains name || (variableStart ++ listName).isPrefixOf name
    || names.any fun setting => variableStart ++ setting == name

/-- Variables with a value that name no setting. -/
def strangers (bindings : Bindings) : Fields :=
  bindings.filterMap fun (name, value) =>
    match value with
    | some text => if text.isEmpty || isKnown name then none else some (name, .text text)
    | none => none

/-- Settings from what is given, an environment, and a file of variables. -/
def load (given : Fields) (environment : Bindings) (file : Option String) :
    Except SettingsError Settings := do
  let outer ← fieldsOf (lowered environment)
  let written := lowered ((file.map (Bindings.ofFile environment)).getD [])
  let inner ← fieldsOf written
  let fields := ((inner ++ strangers written).overlaid outer).overlaid given
  (check fields).toExcept.mapError .invalid

end Settings

end Config

namespace Options

/-- Why settings give no options. -/
inductive FromSettingsError where
  | invalid (complaints : List Complaint)
  | badFormatter (error : Config.WordError)
  deriving DecidableEq, Repr

/-- Options from settings, with some fields replaced; null replaces nothing. -/
def ofSettings (settings : Config.Settings) (replacements : Fields) :
    Except FromSettingsError Options := do
  let words ← (Config.wordsOf settings.formatter).mapError .badFormatter
  let base : Options :=
    { registration := settings.registration
      layout := settings.layout
      storyProperty := settings.storyProperty
      preserveNames := settings.preserveNames
      stripResidualRoots := settings.stripResidualRoots
      formatter := words
      formatterTimeout := settings.formatterTimeout }
  let given := replacements.filter fun field =>
    match field.2 with
    | .null => false
    | _ => true
  (ofFields (base.toFields.overlaid given)).toExcept.mapError .invalid

end Options
end StoryMigration
