import StoryMigration.Data.Check
import StoryMigration.Migration.Outcome

/-!
# Reports

What became of one file of a batch, and what became of all of them. Every file of a batch has one
status, by which it is counted.
-/

namespace StoryMigration
namespace Batch

/-- What became of a file. -/
inductive Status where
  /-- Nothing so far. -/
  | pending
  | converted
  | unchanged
  /-- It was left alone for a reason. -/
  | skipped
  | failed
  deriving DecidableEq, Repr, Inhabited

namespace Status

/-- The name by which reports refer to a status. -/
def name : Status → String
  | pending => "PENDING"
  | converted => "CONVERTED"
  | unchanged => "UNCHANGED"
  | skipped => "SKIPPED"
  | failed => "FAILED"

/-- The status of a name. -/
def ofName? : String → Option Status
  | "PENDING" => some pending
  | "CONVERTED" => some converted
  | "UNCHANGED" => some unchanged
  | "SKIPPED" => some skipped
  | "FAILED" => some failed
  | _ => none

theorem ofName?_name (status : Status) : ofName? status.name = some status := by
  cases status <;> rfl

end Status

/-- The report on a file. -/
structure FileReport where
  path : String
  status : Status := .pending
  diagnostics : List Diagnostic := []
  changeCount : Int := 0
  changes : List Text := []
  /-- The difference of the converted source to the one before. -/
  difference : Option String := none
  /-- Why the file failed. -/
  failure : Option String := none
  /-- The converted source was written to the file. -/
  written : Bool := false
  deriving Repr, Inhabited

namespace FileReport

/-- The diagnostic that some fields describe. -/
def readDiagnostic (value : Value) : Checked Diagnostic :=
  value.asRecord.thenCheck fun fields =>
    Diagnostic.mk
      <$> fields.require "kind" (Value.asOneOf .notAName DiagnosticKind.ofName?)
      <*> fields.require "path" Value.asText
      <*> fields.require "message" Value.asText
      <*> fields.get "chain_count" 0 Value.asInteger

/-- The report that some fields describe. Fields of other names do not matter. -/
def ofFields (fields : Fields) : Checked FileReport :=
  FileReport.mk
    <$> fields.require "path" Value.asText
    <*> fields.get "status" .pending (Value.asOneOf .notAName Status.ofName?)
    <*> fields.get "diagnostics" [] (Value.asList readDiagnostic)
    <*> fields.get "changes_made" 0 Value.asInteger
    <*> fields.get "change_descriptions" []
      (Value.asList fun value => Text.ofString <$> value.asText)
    <*> fields.get "diff" none (Value.asOptional Value.asText)
    <*> fields.get "error_message" none (Value.asOptional Value.asText)
    <*> fields.get "written" false Value.asBoolean

end FileReport

/-- The reports on the files of a batch, in the order of the files. -/
abbrev Reports := List FileReport

namespace Reports

/-- The reports with a status. -/
def having (reports : Reports) (status : Status) : Reports :=
  reports.filter (·.status = status)

/-- All warnings, in the order of the files. -/
def diagnostics (reports : Reports) : List Diagnostic := reports.flatMap (·.diagnostics)

/-- Whether a file failed. -/
def hasFailures (reports : Reports) : Bool := !(having reports .failed).isEmpty

/-- Whether there is a warning or a failure. -/
def needAttention (reports : Reports) : Bool :=
  !(diagnostics reports).isEmpty || hasFailures reports

/-- The counts of a batch in words; a trial run only would have converted files. -/
def summary (reports : Reports) (isTrial : Bool) : String :=
  let count (status : Status) : String := toString (having reports status).length
  count .converted ++ (if isTrial then " would convert, " else " converted, ")
    ++ count .skipped ++ " skipped, " ++ count .failed ++ " failed, "
    ++ toString reports.length ++ " files total"

end Reports

end Batch
end StoryMigration
