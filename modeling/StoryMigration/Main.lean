import StoryMigration.CommandLine.Run

/-!
# The program

Reads the files below the working directory and the environment, runs the command line program on them,
writes the files that have become other ones, and prints what the program has to say.
-/

namespace StoryMigration
namespace Program

/-- The variables that the settings are read from. -/
def variableNames : List String :=
  Config.Settings.names.map fun name => (Config.Settings.variableStart ++ name).toUpper

/-- Whether the files of a directory may matter: those that are excluded from searches do only if an
argument leads there. -/
def matters (arguments : List String) (name : String) : Bool :=
  !Search.standardExcludes.contains name
    || arguments.any fun argument => (Path.ofString argument).parts.contains name

/-- How the program is used. -/
def usage : List String :=
  ["Usage: story-migration migrate [OPTIONS] PATHS...",
    "       story-migration transforms",
    "",
    "Options of migrate:",
    "  -g, --glob PATTERN                      pattern for files inside directories",
    "  -n, --dry-run                           report without writing files",
    "      --diff                              print a difference of every converted file",
    "      --backup                            keep a .bak copy of converted files",
    "  -w, --workers N                         parallel workers",
    "      --quote STYLE                       quote style: single or double",
    "      --tab-width N                       indentation width",
    "      --trailing-comma, --no-trailing-comma",
    "                                          trailing commas in literals over several lines",
    "      --preserve-names, --drop-names      keep names the export name cannot reproduce",
    "      --prettier COMMAND                  formatter command to pipe results through",
    "  -v, --verbose                           verbose logging"]

/-- Why the program broke off, in words. -/
def crashText : CommandLine.Crash → String
  | .settings (.invalid complaints) => complaintsText complaints
  | .settings (.unreadable setting) => setting ++ ": no JSON"
  | .unknownLevel name => "unknown log level: " ++ name
  | .badFormatter e => e.message
  | .invalidOptions complaints => complaintsText complaints
  | .search e => e.message
  | .file e => e.message

/-- The lines about files with warnings and about files that failed. -/
def attentionLines (reports : Batch.Reports) : List String :=
  (Batch.Reports.diagnostics reports).map (fun d => d.path ++ " " ++ d.kind.name ++ " " ++ d.message)
    ++ (Batch.Reports.having reports .failed).map fun report =>
      report.path ++ " FAILED " ++ report.failure.getD ""

/-- The differences of converted files. -/
def differences (reports : Batch.Reports) : List String :=
  (Batch.Reports.having reports .converted).filterMap (·.difference)

/-- Files that a run has made or changed. -/
def changedFiles (before after : FileTree) : List (Place × List UInt8) :=
  after.files.filter fun file => before.item? file.1 != some (.file file.2)

/-- The files below the working directory. -/
def readTree (arguments : List String) : IO FileTree := do
  let root ← IO.currentDir
  let start := root.toString ++ "/"
  let found ← root.walkDir fun directory => pure (matters arguments (directory.fileName.getD ""))
  found.foldlM
    (fun tree path => do
      let place := (Path.ofString (path.toString.drop start.length).toString).parts
      if ← path.isDir then pure (tree.addDirectory place)
      else pure (tree.addFile place (← IO.FS.readBinFile path).toList))
    {}

/-- Writes a file below the working directory. -/
def writeFile (file : Place × List UInt8) : IO Unit := do
  let path := "/".intercalate file.1
  IO.FS.createDirAll ("/".intercalate ("." :: file.1.dropLast))
  IO.FS.writeBinFile path ⟨file.2.toArray⟩

end Program
end StoryMigration

open StoryMigration in
/-- Runs the program on the working directory. -/
def main (arguments : List String) : IO UInt32 := do
  let environment ← Program.variableNames.filterMapM fun name => do
    pure ((← IO.getEnv name).map (name, ·))
  let tree ← Program.readTree arguments
  let ending := CommandLine.run tree environment arguments
  (Program.changedFiles tree ending.tree).forM Program.writeFile
  match CommandLine.Invocation.read arguments with
  | .misuse => Program.usage.forM fun line => IO.eprintln line
  | .help => Program.usage.forM fun line => IO.println line
  | .transforms => pure ()
  | .migrate asked =>
    if asked.showDifferences then (Program.differences ending.reports).forM fun d => IO.print d
    if ending.needsAttention then
      (Program.attentionLines ending.reports).forM fun line => IO.println line
  ending.lines.forM fun line => IO.println line
  ending.crash.forM fun crash => IO.eprintln (Program.crashText crash)
  pure ending.exitCode.toUInt32
