import StoryMigration.Command.Run
import StoryMigration.Command.System

/-!
# A host of scripts and small tools

Runs shell scripts and the small tools they are made of, over a file tree and without a clock: only
waiting takes time. What a host answers depends on nothing but the request and the machine.
-/

namespace StoryMigration
namespace Command

/-- What commands run on. -/
structure Machine where
  tree : FileTree := {}
  environment : List (String × String) := []
  /-- Milliseconds a command may take if the request does not say. -/
  timeout : Int := 30000
  deriving Inhabited

namespace Machine

/-- Runs a program in a shell's surroundings. -/
def runProgram (shell : Shell) (name : String) (arguments : List String) : Option Shell :=
  if name == "sh" || name == "dash" || name == "bash" then
    some ({ shell with name }.started arguments)
  else
    (shell.tool? false name arguments).map fun (effect, input, time) =>
      { shell with
        input
        output := effect.output
        errors := Utf8.ofString effect.errors
        elapsed := time
        ending := some effect.code }

/-- How a command ends that has run, unless it took too long. -/
def endingOf (timeout : Int) (shell : Shell) : Ending :=
  if timeout ≤ shell.elapsed && (timeout < 0 || 0 < shell.elapsed) then .outOfTime
  else .ended (shell.ending.getD 0) shell.output shell.errors

/-- Starts commands on a machine. -/
def system (machine : Machine) : System := fun request =>
  match request.words with
  | [] => .refused .noProgram
  | program :: arguments =>
    let timeout := if request.timeout = 0 then machine.timeout else request.timeout
    if request.words.any fun word => word.contains '\x00' then .refused .brokenWord
    else
      let directory := machine.tree.resolve [] (Path.ofString (request.directory.getD "")).parts
      match directory with
      | .error .missing => .missing
      | .error .throughFile => .refused (.notADirectory (request.directory.getD ""))
      | .ok place =>
        if machine.tree.item? place != some .directory then
          .refused (.notADirectory (request.directory.getD ""))
        else
          let shell : Shell :=
            { name := program
              environment := machine.environment ++ request.environment
              tree := machine.tree
              directory := place
              input := Utf8.ofString (request.input.getD "") }
          match runProgram shell (Shell.programName program) arguments with
          | some shell => endingOf timeout shell
          | none =>
            if program.contains '/' && (shell.find? program).isSome then
              .refused (.notExecutable program)
            else .missing

/-- Runs commands on a machine. -/
def host (machine : Machine) : Host := hostOn machine.system

end Machine
end Command
end StoryMigration
