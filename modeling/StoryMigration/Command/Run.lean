import StoryMigration.Command.Builtin

/-!
# Running scripts

What a shell is behind a script. Each step takes fuel, and a script that uses up all of it waits longer
than anyone would.
-/

namespace StoryMigration
namespace Command
namespace Shell

/-- Steps that a script may take. -/
def patience : Nat := 20000

/-- Milliseconds that a script takes which does not end. -/
def forever : Nat := 1000000000000

/-- A shell that never ends. -/
def endless (shell : Shell) : Shell :=
  { shell with ending := some (-9), elapsed := shell.elapsed + forever }

/-- Whether a pipeline is passed over after the ones before it. -/
def passes (shell : Shell) : Condition → Bool
  | .always => false
  | .success => shell.status != 0
  | .failure => shell.status == 0

/-- Whether the success of a pipeline decides about the next one. -/
def decides (rest : Script) : Bool := rest.head?.any fun next => next.condition != .always

/-- The shell with the streams, the input and the variables that another one has. -/
def restored (ran shell : Shell) (keepsInput keepsVariables : Bool) : Shell :=
  { ran with
    outputTo := shell.outputTo
    errorsTo := shell.errorsTo
    input := if keepsInput then shell.input else ran.input
    environment := if keepsVariables then shell.environment else ran.environment }

/-- Whether input comes from a file. -/
def readsFile (redirections : List Redirection) : Bool :=
  redirections.any fun r =>
    match r with
    | .fromFile _ => true
    | _ => false

/-- The shell that has ended if a failure ends it. -/
def stopped (shell : Shell) : Shell :=
  if shell.stopsOnFailure && !shell.tested && shell.status != 0 && shell.ending.isNone then
    { shell with ending := some shell.status }
  else shell

/-- The shell with success and failure swapped. -/
def negated (shell : Shell) : Shell := { shell with status := if shell.status = 0 then 1 else 0 }

mutual

/-- The shell behind the pipelines of a script. -/
def runAll (fuel : Nat) (shell : Shell) : Script → Shell
  | [] => shell
  | pipeline :: rest =>
    match fuel with
    | 0 => shell.endless
    | fuel + 1 =>
      if shell.ending.isSome then shell
      else if shell.passes pipeline.condition then runAll fuel shell rest
      else
        let inner := { shell with tested := shell.tested || pipeline.negated || decides rest }
        let after :=
          match pipeline.commands with
          | [command] => run fuel inner command
          | commands => runPiped fuel inner shell.outputTo commands
        let after := if pipeline.negated then after.negated else after.stopped
        runAll fuel { after with tested := shell.tested } rest

/-- The shell behind commands of which each reads what the one before it writes, and the last one writes
to a sink. Each runs in a shell of its own. -/
def runPiped (fuel : Nat) (shell : Shell) (sink : Sink) : List ScriptCommand → Shell
  | [] => shell
  | command :: rest =>
    match fuel with
    | 0 => shell.endless
    | fuel + 1 =>
      if rest.isEmpty then
        shell.behind (run fuel { shell with outputTo := sink, tested := true } command)
      else
        let inner := run fuel { shell.opened with tested := true } command
        let after := { shell.behind inner with pipes := inner.pipes.dropLast }
        let ran := runPiped fuel { after with input := inner.piped } sink rest
        { ran with input := inner.input, outputTo := shell.outputTo }

/-- The shell behind a command. -/
def run (fuel : Nat) (shell : Shell) (command : ScriptCommand) : Shell :=
  match fuel with
  | 0 => shell.endless
  | fuel + 1 =>
    match command with
    | .simple words redirections line => runSimple fuel shell words redirections line
    | .group true body redirections =>
      runLed fuel shell redirections fun shell =>
        let inner := runAll fuel shell body
        { shell.behind inner with input := inner.input }
    | .group false body redirections =>
      runLed fuel shell redirections fun shell => runAll fuel shell body
    | .choice test body otherwise redirections =>
      runLed fuel shell redirections fun shell =>
        let after := runTested fuel shell test
        if after.status = 0 then runAll fuel after body
        else runAll fuel { after with status := 0 } otherwise
    | .loop whileSuccess test body redirections =>
      runLed fuel shell redirections fun shell => runLoop fuel shell whileSuccess test body 0
    | .each name words body redirections =>
      runLed fuel shell redirections fun shell =>
        let (shell, values) :=
          match words with
          | some words => expandAll fuel shell words
          | none => (shell, shell.arguments)
        runEach fuel shell name body values

/-- The shell behind what runs with its streams led elsewhere. -/
def runLed (fuel : Nat) (shell : Shell) (redirections : List Redirection)
    (body : Shell → Shell) : Shell :=
  match fuel with
  | 0 => shell.endless
  | fuel + 1 =>
    match redirected fuel shell redirections with
    | .error text => { shell.complain 1 text with status := 2 }
    | .ok inner => (body inner).restored shell (readsFile redirections) false

/-- The shell behind commands whose success is tested. -/
def runTested (fuel : Nat) (shell : Shell) (script : Script) : Shell :=
  match fuel with
  | 0 => shell.endless
  | fuel + 1 =>
    { runAll fuel { shell with tested := true } script with tested := shell.tested }

/-- The shell behind a loop; `status` is the exit code of the last body. -/
def runLoop (fuel : Nat) (shell : Shell) (whileSuccess : Bool) (test body : Script)
    (status : Nat) : Shell :=
  match fuel with
  | 0 => shell.endless
  | fuel + 1 =>
    let after := runTested fuel shell test
    if after.ending.isSome then after
    else if (after.status == 0) != whileSuccess then { after with status }
    else
      let after := runAll fuel after body
      if after.ending.isSome then after
      else runLoop fuel after whileSuccess test body after.status

/-- The shell behind a body that runs for each of some values. -/
def runEach (fuel : Nat) (shell : Shell) (name : String) (body : Script) :
    List String → Shell
  | [] => { shell with status := 0 }
  | [value] =>
    match fuel with
    | 0 => shell.endless
    | fuel + 1 => runAll fuel (shell.assigned [(name, value)]) body
  | value :: rest =>
    match fuel with
    | 0 => shell.endless
    | fuel + 1 =>
      let after := runAll fuel (shell.assigned [(name, value)]) body
      if after.ending.isSome then after else runEach fuel after name body rest

/-- The shell behind a simple command. -/
def runSimple (fuel : Nat) (shell : Shell) (words : List Word)
    (redirections : List Redirection) (line : Nat) : Shell :=
  match fuel with
  | 0 => shell.endless
  | fuel + 1 =>
    let (heads, words) := words.span fun word => (assignment? word).isSome
    let (shell, fields) := expandAll fuel { shell with captured := 0 } words
    let (shell, values) := expandValues fuel shell (heads.filterMap assignment?)
    match redirected fuel shell redirections with
    | .error text => { shell.complain line text with status := 2 }
    | .ok inner =>
      let shell := { shell with tree := inner.tree }
      match fields with
      | [] => { shell.assigned values with status := shell.captured }
      | ["exec"] => { inner.assigned values with status := 0 }
      | name :: arguments =>
        let ran := runNamed fuel (inner.assigned values) line name arguments
        ran.restored shell (readsFile redirections) (!values.isEmpty)

/-- The shell behind a command whose words are known. -/
def runNamed (fuel : Nat) (shell : Shell) (line : Nat) (name : String)
    (arguments : List String) : Shell :=
  match fuel with
  | 0 => shell.endless
  | fuel + 1 =>
    match name, arguments with
    | "eval", arguments => runText fuel shell (" ".intercalate arguments)
    | "exec", name :: arguments =>
      let ran :=
        if name == "sh" || (shell.builtin? line name arguments).isSome then
          runNamed fuel shell line name arguments
        else shell.notFound line name ("exec: " ++ name)
      { ran with ending := some (ran.ending.getD ran.status) }
    | "sh", arguments =>
      let inner := start fuel { shell with name, arguments := [], status := 0 } arguments
      let after := shell.behind inner
      { after with status := inner.codeOf, ending := none, input := inner.input }
    | name, arguments =>
      match shell.builtin? line name arguments with
      | some after => after
      | none => shell.notFound line name name

/-- The shell behind a script as a text. -/
def runText (fuel : Nat) (shell : Shell) (text : String) : Shell :=
  match fuel with
  | 0 => shell.endless
  | fuel + 1 =>
    match Script.read text with
    | .ok script => runAll fuel shell script
    | .error e => shell.failed 1 e.message

/-- A shell with its own arguments: a script behind `-c`, or a file with a script, or a script in the
input. -/
def start (fuel : Nat) (shell : Shell) (arguments : List String) : Shell :=
  match fuel with
  | 0 => shell.endless
  | fuel + 1 =>
    match arguments with
    | "-c" :: script :: name :: rest => runText fuel { shell with name, arguments := rest } script
    | ["-c", script] => runText fuel shell script
    | ["-c"] => shell.failed 0 "-c requires an argument"
    | "-s" :: rest =>
      runText fuel { shell with arguments := rest, input := [] }
        ((Utf8.toString? shell.input).getD "")
    | "-e" :: rest => start fuel { shell with stopsOnFailure := true } rest
    | [] => runText fuel { shell with input := [] } ((Utf8.toString? shell.input).getD "")
    | file :: rest =>
      match shell.item? file with
      | some (.file bytes) =>
        runText fuel { shell with name := file, arguments := rest }
          ((Utf8.toString? bytes).getD "")
      | _ => shell.failed 0 ("cannot open " ++ file ++ ": No such file")

/-- The shell and the fields behind a piece of a word. -/
def expandPiece (fuel : Nat) (shell : Shell) (fields : Fields) (piece : Piece) :
    Shell × Fields :=
  match fuel with
  | 0 => (shell.endless, fields)
  | fuel + 1 =>
    match piece with
    | .text text _ => (shell, fields.append text)
    | .reference name quoted => (shell, shell.appendValue fields name quoted)
    | .output script quoted =>
      let ran := runText fuel shell.opened script
      let bytes := (ran.piped.reverse.dropWhile (· == 10)).reverse
      let text := (Utf8.toString? bytes).getD ""
      let after := shell.behind ran
      ({ after with
          pipes := ran.pipes.dropLast
          input := ran.input
          captured := ran.codeOf
          status := shell.status },
        if quoted then fields.append text else fields.appendCut text.toList)

/-- The shell and the fields behind the pieces of a word. -/
def expandPieces (fuel : Nat) (shell : Shell) (fields : Fields) : Word → Shell × Fields
  | [] => (shell, fields)
  | piece :: rest =>
    match fuel with
    | 0 => (shell.endless, fields)
    | fuel + 1 =>
      let (shell, fields) := expandPiece fuel shell fields piece
      expandPieces fuel shell fields rest

/-- The shell behind words, and the fields that they stand for. -/
def expandAll (fuel : Nat) (shell : Shell) : List Word → Shell × List String
  | [] => (shell, [])
  | word :: rest =>
    match fuel with
    | 0 => (shell.endless, [])
    | fuel + 1 =>
      let (shell, fields) := expandPieces fuel shell {} word
      let (shell, others) := expandAll fuel shell rest
      (shell, fields.toList ++ others)

/-- The shell behind a word, and the one text that it stands for. -/
def expandWhole (fuel : Nat) (shell : Shell) : Word → Shell × String
  | [] => (shell, "")
  | piece :: rest =>
    match fuel with
    | 0 => (shell.endless, "")
    | fuel + 1 =>
      let whole :=
        match piece with
        | .text text _ => Piece.text text true
        | .reference "@" _ => .reference "*" true
        | .reference name _ => .reference name true
        | .output script _ => .output script true
      let (shell, fields) := expandPiece fuel shell {} whole
      let (shell, others) := expandWhole fuel shell rest
      (shell, fields.current.getD "" ++ others)

/-- The shell behind words that set variables, and the values. Each value can refer to the ones before
it. -/
def expandValues (fuel : Nat) (shell : Shell) :
    List (String × Word) → Shell × List (String × String)
  | [] => (shell, [])
  | (name, word) :: rest =>
    match fuel with
    | 0 => (shell.endless, [])
    | fuel + 1 =>
      let (after, value) := expandWhole fuel shell word
      let (after, values) := expandValues fuel (after.assigned [(name, value)]) rest
      ({ after with environment := shell.environment }, (name, value) :: values)

/-- The shell with its streams led elsewhere, in order; a complaint if a file is not there. -/
def redirected (fuel : Nat) (shell : Shell) : List Redirection → Except String Shell
  | [] => .ok shell
  | redirection :: rest =>
    match fuel with
    | 0 => .ok shell.endless
    | fuel + 1 =>
      match redirection with
      | .join stream target =>
        redirected fuel
          (shell.leading stream (if target = 2 then shell.errorsTo else shell.outputTo)) rest
      | .toFile stream keeps file =>
        let (shell, path) := expandWhole fuel shell file
        match shell.leadingToFile? stream keeps path with
        | some shell => redirected fuel shell rest
        | none => .error ("cannot create " ++ path ++ ": Directory nonexistent")
      | .fromFile file =>
        let (shell, path) := expandWhole fuel shell file
        match shell.item? path with
        | some (.file bytes) => redirected fuel { shell with input := bytes } rest
        | _ => .error ("cannot open " ++ path ++ ": No such file")

end

/-- A shell behind its own arguments. -/
def started (shell : Shell) (arguments : List String) : Shell :=
  let after := start patience shell arguments
  { after with ending := some (after.ending.getD after.status) }

end Shell
end Command
end StoryMigration
