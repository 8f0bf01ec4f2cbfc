import StoryMigration.Command.Request
import StoryMigration.Text.Utf8Defect

/-!
# Commands on a system

A system starts commands and waits for them; here it is any function from requests to the ways they end.
What a command has printed must be text. A command whose program is missing or that does not end in time
still has a result.
-/

namespace StoryMigration
namespace Command

/-- How a command comes to an end. -/
inductive Ending where
  /-- There is no such program. -/
  | missing
  /-- The program is not started, for another reason. -/
  | refused (reason : Failure)
  /-- The command takes longer than it may. -/
  | outOfTime
  /-- The command ends by itself: its exit code, and the bytes it has printed. -/
  | ended (code : Int) (output errors : List UInt8)
  deriving DecidableEq, Repr

/-- Something that starts commands and waits for them. -/
abbrev System := Request → Ending

/-- The text of what a program has printed, with line feeds for all line endings. -/
def printedText (bytes : List UInt8) : Except Failure String :=
  match Utf8.read bytes with
  | .ok text => .ok (String.ofList (Newline.unified text.toList))
  | .error defect => .error (.outputNotText defect.text)

/-- The result of a command that has come to an end. -/
def Ending.result (request : Request) (ending : Ending) : Except Failure Result :=
  let line := " ".intercalate request.words
  match ending with
  | missing =>
    .ok
      { line
        exitCode := -1
        output := ""
        errors := "Command not found: " ++ request.words.headD ""
        timedOut := false }
  | refused reason => .error reason
  | outOfTime => .ok { line, exitCode := -1, output := "", errors := "", timedOut := true }
  | ended code output errors => do
    let output ← printedText output
    let errors ← printedText errors
    pure { line, exitCode := code, output, errors, timedOut := false }

/-- The host that runs commands on a system. -/
def hostOn (system : System) : Host := fun request => (system request).result request

end Command
end StoryMigration
