import StoryMigration.Story.Layout

/-!
# Commands

What is asked of an external command and what comes of it. A host runs commands; here it is any function
from requests to outcomes, so that nothing depends on how commands are run.
-/

namespace StoryMigration
namespace Command

/-- A command to run. -/
structure Request where
  /-- The program and its arguments. -/
  words : List String
  /-- The directory to run it in, if not the current one. -/
  directory : Option String := none
  /-- Milliseconds it may take. -/
  timeout : Int
  /-- Variables added to its environment. -/
  environment : List (String × String) := []
  /-- Text for its standard input. -/
  input : Option String := none
  deriving Repr

/-- The outcome of a command. -/
structure Result where
  /-- The program and its arguments, with spaces between them. -/
  line : String
  /-- The exit code; a signal is its negative number. -/
  exitCode : Int
  output : String
  errors : String
  timedOut : Bool
  deriving DecidableEq, Repr, Inhabited

/-- The command ended by itself and with exit code zero. -/
def Result.succeeded (result : Result) : Bool := result.exitCode == 0

/-- Why a command has no result. -/
inductive Failure where
  /-- No program is named. -/
  | noProgram
  /-- The program may not be executed. -/
  | notExecutable (program : String)
  /-- The directory to run it in is no directory. -/
  | notADirectory (path : String)
  /-- A word of the command holds a character that ends words. -/
  | brokenWord
  /-- The output is no UTF-8: the byte, its position and what is wrong with it. -/
  | outputNotText (reason : String)
  deriving DecidableEq, Repr

/-- Something that runs commands. -/
abbrev Host := Request → Except Failure Result

/-- The arguments that tell a formatter how generated code is laid out. -/
def layoutArguments (layout : Layout) : List String :=
  ["--tab-width", toString layout.tabWidth, "--trailing-comma",
      if layout.trailingComma then "all" else "none"]
    ++ (if layout.quoteStyle = .single then ["--single-quote"] else [])

/-- The request that pipes a text through a formatter. The path tells it the dialect. -/
def formatRequest (words : List String) (source path : String) (layout : Layout)
    (timeout : Int) : Request :=
  { words := words ++ layoutArguments layout
      ++ ["--stdin-filepath", if path.isEmpty then "story.jsx" else path]
    timeout := timeout
    input := some source }

/-- A text with normal ends, piped through a formatter if one is named. The formatter's output counts
if it succeeds and prints something. -/
def prettify (host : Host) (words : List String) (source path : String) (layout : Layout)
    (timeout : Int) : Except Failure String := do
  let text := Newline.normalizedEnds source
  if words.isEmpty then pure text
  else
    let result ← host (formatRequest words text path layout timeout)
    pure (if result.succeeded && !result.output.isEmpty then result.output else text)

end Command
end StoryMigration
