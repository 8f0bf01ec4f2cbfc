import StoryMigration.Data.Check
import StoryMigration.Migration.Options

/-!
# Options as named fields

Reading options from loosely typed fields, and writing them back. Fields that were written are read back
as the same options, provided the tab width is within its bounds.
-/

namespace StoryMigration
namespace Options

/-- The least and the greatest tab width that are accepted. -/
def tabWidthBounds : Int × Int := (1, 8)

/-- A tab width within its bounds. -/
def readTabWidth (value : Value) : Checked Int :=
  value.asInteger.between tabWidthBounds.1 (some tabWidthBounds.2)

/-- A quote style. -/
def readQuoteStyle : Value → Checked QuoteStyle := Value.asOneOf .notAChoice QuoteStyle.ofName?

/-- The layout some fields ask for. -/
def readLayout (fields : Fields) : Checked Layout :=
  Layout.mk
    <$> fields.get "quote_style" .single readQuoteStyle
    <*> fields.get "trailing_comma" true Value.asBoolean
    <*> fields.get "tab_width" 2 readTabWidth

/-- The registration function some fields name. -/
def readRegistration (fields : Fields) : Checked Chain.Registration :=
  let standard : Chain.Registration := {}
  Chain.Registration.mk
    <$> fields.get "legacy_function_name" standard.functionName Value.asText
    <*> fields.get "legacy_package_prefix" standard.packageStart Value.asText

/-- The options some fields ask for. Fields of other names do not matter. -/
def ofFields (fields : Fields) : Checked Options :=
  let standard : Options := {}
  Options.mk
    <$> readRegistration fields
    <*> readLayout fields
    <*> fields.get "story_annotation_property" standard.storyProperty Value.asText
    <*> fields.get "preserve_story_names" standard.preserveNames Value.asBoolean
    <*> fields.get "strip_residual_roots" standard.stripResidualRoots Value.asBoolean
    <*> fields.get "prettier_command" standard.formatter (Value.asList Value.asText)
    <*> fields.get "formatter_timeout" standard.formatterTimeout Value.asInteger
    <*> fields.get "grammar" standard.dialect
      (Value.asOptional (Value.asOneOf .notAChoice Syntax.Dialect.ofName?))

/-- Options as fields. -/
def toFields (options : Options) : Fields :=
  [("legacy_function_name", .text options.registration.functionName),
    ("legacy_package_prefix", .text options.registration.packageStart),
    ("quote_style", .text options.layout.quoteStyle.name),
    ("trailing_comma", .bool options.layout.trailingComma),
    ("tab_width", .int options.layout.tabWidth),
    ("story_annotation_property", .text options.storyProperty),
    ("preserve_story_names", .bool options.preserveNames),
    ("strip_residual_roots", .bool options.stripResidualRoots),
    ("prettier_command", .list (options.formatter.map .text)),
    ("formatter_timeout", .int options.formatterTimeout),
    ("grammar", (options.dialect.map fun d => Value.text d.name).getD .null)]

/-- A text to put into code for a value. -/
def plainText : Value → String
  | .text s => s
  | .int n => toString n
  | .bool b => if b then "True" else "False"
  | _ => "None"

/-- Options with one field replaced, without any check: whatever is not the text `single` asks for
double quotes, and a truth value is that of the value. A number that is none and a dialect that is not
known leave the field as it is. -/
def replaced (options : Options) (name : String) (value : Value) : Options :=
  match name with
  | "legacy_function_name" => { options with registration.functionName := plainText value }
  | "legacy_package_prefix" => { options with registration.packageStart := plainText value }
  | "quote_style" =>
    { options with
      layout.quoteStyle := if plainText value == "single" then .single else .double }
  | "trailing_comma" => { options with layout.trailingComma := value.isTruthy }
  | "tab_width" =>
    match value.asInteger with
    | .ok width => { options with layout.tabWidth := width }
    | .faulty _ => options
  | "story_annotation_property" => { options with storyProperty := plainText value }
  | "preserve_story_names" => { options with preserveNames := value.isTruthy }
  | "strip_residual_roots" => { options with stripResidualRoots := value.isTruthy }
  | "prettier_command" =>
    match value with
    | .list items => { options with formatter := items.map plainText }
    | .text s => { options with formatter := s.toList.map fun c => String.ofList [c] }
    | _ => { options with formatter := [] }
  | "formatter_timeout" =>
    match value.asInteger with
    | .ok seconds => { options with formatterTimeout := seconds }
    | .faulty _ => options
  | "grammar" =>
    if value.isTruthy then
      match Syntax.Dialect.ofName? (plainText value) with
      | some dialect => { options with dialect := some dialect }
      | none => options
    else { options with dialect := none }
  | _ => options

/-- Options with some fields replaced, without any check. -/
def overridden (options : Options) (fields : Fields) : Options :=
  fields.foldl (fun options field => options.replaced field.1 field.2) options

/-- The name of the dialect that some fields ask for, if there is no such dialect. -/
def unknownDialect? (fields : Fields) : Option String := do
  let value ← fields.find? "grammar"
  let name := plainText value
  if value.isTruthy && (Syntax.Dialect.ofName? name).isNone then some name else none

/-- Whether some fields ask for a tab width that no number of spaces comes of. -/
def hasUnusableWidth (fields : Fields) : Bool :=
  match fields.find? "tab_width" with
  | none => false
  | some (.int _) => false
  | some (.bool _) => false
  | some _ => true

/-- How an unknown dialect is put into words. -/
def unknownDialectMessage (name : String) : String := "Unknown grammar: " ++ name

end Options
end StoryMigration
