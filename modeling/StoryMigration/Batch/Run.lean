import StoryMigration.Batch.Report
import StoryMigration.Command.Machine
import StoryMigration.Diff.Unified
import StoryMigration.Files.Tree
import StoryMigration.Migration.Convert

/-!
# Migrating files

Files of a tree are read, converted, and written back if that is asked for. What goes wrong with one
file stands in its report and does not stop the others. Without writing, a batch leaves the tree as it
is.
-/

namespace StoryMigration

/-- How a report words the failure of a file operation. -/
def FileError.report (error : FileError) : String :=
  match error with
  | notAFile _ => "ValueError: " ++ error.message
  | nameless => "ValueError: " ++ error.message
  | nullInFile => "ValueError: " ++ error.message
  | nullInDirectory => "ValueError: " ++ error.message
  | unencodable => "UnicodeEncodeError: " ++ error.message
  | _ => error.message

/-- How a report words the failure of a formatter. -/
def Command.Failure.report : Command.Failure → String
  | noProgram => "IndexError: list index out of range"
  | notExecutable program => "[Errno 13] Permission denied: " ++ Quotation.of program
  | notADirectory path => "[Errno 20] Not a directory: " ++ Quotation.of path
  | brokenWord => "ValueError: embedded null byte"
  | outputNotText reason => reason

/-- How a report words the failure of an escape. -/
def Syntax.EscapeError.report : Syntax.EscapeError → String
  | beyondUnicode => "ValueError: chr() arg not in range(0x110000)"
  | beyondMachine => "OverflowError: Python int too large to convert to C int"

/-- How a report words the failure of edits. -/
def EditError.report (error : EditError) : String :=
  match error with
  | .overlap _ => "ValueError: " ++ error.message.getD ""
  | .unencodable => "UnicodeEncodeError: surrogates not allowed"
  | .undecodable => "invalid continuation byte"

/-- How a report words the failure of a migration. -/
def MigrationError.report : MigrationError → String
  | unparsable path dialect => unparsableMessage path dialect
  | badResult path => badResultMessage path
  | badEscape error => error.report
  | badEdit error => error.report
  | badCommand failure => failure.report

namespace Batch

/-- Whether converted sources are written back, and whether the sources before are kept beside them. -/
structure Writing where
  write : Bool := false
  backup : Bool := false
  deriving DecidableEq, Repr, Inhabited

/-- Failures that strike a step from outside, such as a file system that refuses it, in the words of the
report. A step that is struck changes nothing. -/
structure Faults where
  read : Option String := none
  convert : Option String := none
  compare : Option String := none
  backup : Option String := none
  write : Option String := none
  deriving Repr, Inhabited

/-- The result of a step that a fault may strike. -/
def struck {α : Type} (fault : Option String) (result : Except String α) : Except String α :=
  match fault with
  | some reason => .error reason
  | none => result

/-- What a step on files leaves behind if a fault may strike it. -/
def attempt {α : Type} (fault : Option String) (tree : FileTree) (step : FileTree.Step α) :
    Except String Unit × FileTree :=
  match fault, step.result with
  | some reason, _ => (.error reason, tree)
  | none, .error e => (.error e.report, step.tree)
  | none, .ok _ => (.ok (), step.tree)

/-- The tree with a converted source in a file, behind a backup if one is asked for. -/
def store (faults : Faults) (tree : FileTree) (path code : String) (backup : Bool) :
    Except String Unit × FileTree :=
  let saved := if backup then attempt faults.backup tree (tree.backup path) else (.ok (), tree)
  match saved.1 with
  | .error reason => (.error reason, saved.2)
  | .ok _ => attempt faults.write saved.2 (saved.2.write path (Text.ofString code))

/-- The report on an outcome before anything is written. -/
def reportOf (path : String) (outcome : Outcome) : FileReport :=
  let report : FileReport :=
    { path
      diagnostics := outcome.diagnostics
      changeCount := outcome.changes.length
      changes := outcome.changes }
  if outcome.hasChanges then
    { report with
      status := .converted
      difference := some (Diff.unified outcome.before outcome.code path) }
  else if outcome.diagnostics.isEmpty then { report with status := .unchanged }
  else { report with status := .skipped }

/-- The report on a file that failed. -/
def FileReport.failed (report : FileReport) (reason : String) : FileReport :=
  { report with status := .failed, failure := some reason }

/-- Migrates one file while faults may strike: its report, and the tree behind it. -/
def migrateFileUnder (faults : Faults) (hostOf : FileTree → Command.Host) (options : Options)
    (writing : Writing) (tree : FileTree) (path : String) : FileReport × FileTree :=
  match struck faults.read ((tree.read path).mapError (·.report)) with
  | .error reason => (FileReport.failed { path } reason, tree)
  | .ok source =>
    match struck faults.convert
        ((Migration.convert (hostOf tree) options path source).mapError (·.report)) with
    | .error reason => (FileReport.failed { path } reason, tree)
    | .ok outcome =>
      let report := reportOf path outcome
      if report.status != .converted then (report, tree)
      else
        match faults.compare with
        | some reason => (FileReport.failed { report with difference := none } reason, tree)
        | none =>
          if writing.write then
            let stored := store faults tree path outcome.code writing.backup
            match stored.1 with
            | .error reason => (report.failed reason, stored.2)
            | .ok _ => ({ report with written := true }, stored.2)
          else (report, tree)

/-- Migrates one file: its report, and the tree behind it. -/
def migrateFile (hostOf : FileTree → Command.Host) (options : Options) (writing : Writing)
    (tree : FileTree) (path : String) : FileReport × FileTree :=
  migrateFileUnder {} hostOf options writing tree path

/-- Migrates files one after another. -/
def migrateFiles (hostOf : FileTree → Command.Host) (options : Options) (writing : Writing) :
    FileTree → List String → Reports × FileTree
  | tree, [] => ([], tree)
  | tree, path :: rest =>
    let (report, tree) := migrateFile hostOf options writing tree path
    let (reports, tree) := migrateFiles hostOf options writing tree rest
    (report :: reports, tree)

end Batch
end StoryMigration
