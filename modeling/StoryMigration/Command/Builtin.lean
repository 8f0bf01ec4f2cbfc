import StoryMigration.Command.LineEdit
import StoryMigration.Command.Shell

/-!
# Commands that a shell runs itself

Commands that change the shell, tests, and the small tools with the shell's files and input.
-/

namespace StoryMigration
namespace Command
namespace Shell

/-! ## Signals -/

/-- The numbers of signals. -/
def signals : List (String × Nat) :=
  [("HUP", 1), ("INT", 2), ("QUIT", 3), ("ILL", 4), ("TRAP", 5), ("ABRT", 6), ("BUS", 7),
    ("FPE", 8), ("KILL", 9), ("USR1", 10), ("SEGV", 11), ("USR2", 12), ("PIPE", 13), ("ALRM", 14),
    ("TERM", 15)]

/-- The number of a signal, by its name or by its number. -/
def signal? (text : String) : Option Nat :=
  let text := if "SIG".isPrefixOf text then String.ofList (text.toList.drop 3) else text
  (signals.lookup text) <|> text.toNat?

/-- The signal that arguments send to the shell itself. -/
def sentSignal? (arguments : List String) : Option Nat :=
  match arguments with
  | [target] => if target == ownNumber then some 15 else none
  | ["-s", name, target] => if target == ownNumber then signal? name else none
  | [option, target] =>
    if target == ownNumber then
      match option.toList with
      | '-' :: name => signal? (String.ofList name)
      | _ => none
    else none
  | _ => none

/-! ## Tests -/

/-- Why a test has no answer. -/
inductive TestError where
  | illegalNumber (text : String)
  | unexpectedOperator (text : String)
  deriving DecidableEq, Repr

/-- The error of a test in words. -/
def TestError.message : TestError → String
  | illegalNumber text => "Illegal number: " ++ text
  | unexpectedOperator text => text ++ ": unexpected operator"

/-- Comparisons of numbers. -/
def comparison? : String → Option (Int → Int → Bool)
  | "-eq" => some fun a b => a == b
  | "-ne" => some fun a b => a != b
  | "-lt" => some fun a b => a < b
  | "-le" => some fun a b => a ≤ b
  | "-gt" => some fun a b => b < a
  | "-ge" => some fun a b => b ≤ a
  | _ => none

/-- A test of one word. -/
def unary? (shell : Shell) (operator word : String) : Option Bool :=
  match operator with
  | "-n" => some !word.isEmpty
  | "-z" => some word.isEmpty
  | "-e" => some (shell.item? word).isSome
  | "-d" => some (shell.item? word == some .directory)
  | "-f" =>
    match shell.item? word with
    | some (.file _) => some (word != "/dev/null")
    | _ => some false
  | "-s" =>
    match shell.item? word with
    | some (.file bytes) => some !bytes.isEmpty
    | item => some item.isSome
  | _ => none

/-- The number that a word of a test writes. -/
def testNumber (word : String) : Except TestError Int :=
  match word.toInt? with
  | some n => .ok n
  | none => .error (.illegalNumber word)

/-- A test of some words. -/
def test (shell : Shell) : List String → Except TestError Bool
  | [] => .ok false
  | [word] => .ok !word.isEmpty
  | [operator, word] =>
    if operator == "!" then .ok word.isEmpty
    else
      match shell.unary? operator word with
      | some answer => .ok answer
      | none => .error (.unexpectedOperator operator)
  | [a, operator, b] =>
    match comparison? operator with
    | some compare => do pure (compare (← testNumber a) (← testNumber b))
    | none =>
      if operator == "=" then .ok (a == b)
      else if operator == "!=" then .ok (a != b)
      else if a == "!" then do pure !(← shell.test [operator, b])
      else .error (.unexpectedOperator a)
  | a :: rest =>
    if a == "!" then do pure !(← shell.test rest) else .error (.unexpectedOperator a)

/-- The shell behind a test. -/
def runTest (shell : Shell) (line : Nat) (name : String) (words : List String) : Shell :=
  match shell.test words with
  | .ok answer => { shell with status := if answer then 0 else 1 }
  | .error e => { shell.complain line (name ++ ": " ++ e.message) with status := 2 }

/-! ## Reading lines -/

/-- Up to `count` fields of a line, the last of which is all that is left. -/
def lineFields (count : Nat) (line : List Char) : List String :=
  let line := line.dropWhile isCut
  match count with
  | 0 => []
  | 1 => [String.ofList (line.reverse.dropWhile isCut).reverse]
  | count + 1 =>
    String.ofList (line.takeWhile (!isCut ·)) :: lineFields count (line.dropWhile (!isCut ·))

/-- A line without the backslashes that quote its characters. -/
def unquoted : List Char → List Char
  | '\\' :: c :: rest => c :: unquoted rest
  | c :: rest => c :: unquoted rest
  | [] => []

/-- The shell behind reading a line into variables. It fails at the end of the input. -/
def readLine (shell : Shell) (arguments : List String) : Shell :=
  let (raw, names) :=
    match arguments with
    | "-r" :: names => (true, names)
    | names => (false, names)
  let (line, rest) := shell.input.span (· != 10)
  let text := ((Utf8.toString? line).getD "").toList
  let text := if raw then text else unquoted text
  { shell.assigned (names.zip (lineFields names.length text)) with
    input := rest.drop 1
    status := if rest.isEmpty then 1 else 0 }

/-! ## Tools -/

/-- Copies files, or the input if none is named or the name is a hyphen. -/
def cat (shell : Shell) (arguments : List String) : Effect × List UInt8 :=
  match Tool.option? arguments with
  | some option => (Tool.unknownOption "cat" option, shell.input)
  | none =>
    let files := arguments.filter (· != "--")
    let files := if files.isEmpty then ["-"] else files
    files.foldl
      (fun (effect, input) file =>
        if file == "-" then ({ effect with output := effect.output ++ input }, [])
        else
          match shell.item? file with
          | some (.file bytes) => ({ effect with output := effect.output ++ bytes }, input)
          | some .directory =>
            ({ effect with errors := effect.errors ++ "cat: " ++ file ++ ": Is a directory\n"
                           code := 1 }, input)
          | none =>
            ({ effect with errors := effect.errors ++ "cat: " ++ file
                             ++ ": No such file or directory\n"
                           code := 1 }, input))
      ({}, shell.input)

/-- The contents of files one behind the other, or the input if none is named; a complaint for each that
is not there. -/
def inputFrom (shell : Shell) (files : List String) : List UInt8 × List String :=
  if files.isEmpty then (shell.input, [])
  else
    (files.flatMap fun file =>
        if file == "-" then shell.input
        else
          match shell.item? file with
          | some (.file bytes) => bytes
          | _ => [],
      files.filter fun file => file != "-" && (shell.item? file).isNone)

/-- Edits the lines of the input, or of files. -/
def sed (shell : Shell) (arguments : List String) : Effect :=
  match LineEdit.Invocation.ofArguments arguments with
  | .error effect => effect
  | .ok invocation =>
    let (bytes, missing) := shell.inputFrom invocation.files
    let effect := invocation.run bytes
    if missing.isEmpty then effect
    else
      { effect with
        errors := effect.errors ++ String.join (missing.map fun file =>
          "sed: can't read " ++ file ++ ": No such file or directory\n")
        code := 2 }

/-- What a tool does, what is left of the input, and the milliseconds it waits; `isOwn` if the shell
itself does it. -/
def tool? (shell : Shell) (isOwn : Bool) (name : String) (arguments : List String) :
    Option (Effect × List UInt8 × Nat) :=
  match name with
  | "true" => some ({}, shell.input, 0)
  | "false" => some (.failing 1 "", shell.input, 0)
  | "echo" => some (Tool.echo isOwn arguments, shell.input, 0)
  | "printf" => some (Tool.printf isOwn arguments, shell.input, 0)
  | "cat" =>
    let (effect, input) := shell.cat arguments
    some (effect, input, 0)
  | "tr" => some (Tool.tr arguments shell.input, [], 0)
  | "sed" => some (shell.sed arguments, [], 0)
  | "sleep" =>
    match Tool.sleepTime arguments with
    | .ok time => some ({}, shell.input, time)
    | .error effect => some (effect, shell.input, 0)
  | _ => none

/-- Directories of programs. -/
def programDirectories : List String := ["/bin", "/usr/bin"]

/-- The name of a program that is named alone or in a directory of programs. -/
def programName (word : String) : String :=
  let path := Path.ofString word
  if path.isAbsolute && programDirectories.contains path.parent.toString then path.name else word

/-! ## Commands that change the shell -/

/-- The shell behind a complaint that ends it. -/
def failed (shell : Shell) (line : Nat) (text : String) : Shell :=
  { shell.complain line text with status := 2, ending := some 2 }

/-- The shell behind an order to end. -/
def exit (shell : Shell) (line : Nat) (arguments : List String) : Shell :=
  match arguments with
  | [] => { shell with ending := some shell.status }
  | code :: _ =>
    match code.toNat? with
    | some n => { shell with status := n % 256, ending := some (n % 256) }
    | none => shell.failed line ("exit: Illegal number: " ++ code)

/-- The shell without its first arguments. -/
def shift (shell : Shell) (line : Nat) (arguments : List String) : Shell :=
  let count := (arguments.head?.bind String.toNat?).getD 1
  if shell.arguments.length < count then shell.failed line "shift: can't shift that many"
  else { shell with arguments := shell.arguments.drop count, status := 0 }

/-- The shell in another directory. -/
def changeDirectory (shell : Shell) (line : Nat) (arguments : List String) : Shell :=
  let path := arguments.head?.getD ""
  match (shell.find? path).filter fun place => shell.tree.item? place == some .directory with
  | some place => { shell with directory := place, status := 0 }
  | none => { shell.complain line ("cd: can't cd to " ++ path) with status := 2 }

/-- The shell behind a signal, if it is one to itself. -/
def kill (shell : Shell) (line : Nat) (arguments : List String) : Shell :=
  match sentSignal? arguments with
  | some 0 => { shell with status := 0 }
  | some n => { shell with ending := some (-(n : Int)) }
  | none => { shell.complain line "kill: No such process\n" with status := 1 }

/-- The shell behind `set`: options, or new arguments. -/
def set (shell : Shell) : List String → Shell
  | "-e" :: rest => set { shell with stopsOnFailure := true, status := 0 } rest
  | "+e" :: rest => set { shell with stopsOnFailure := false, status := 0 } rest
  | "--" :: rest => { shell with arguments := rest, status := 0 }
  | [] => { shell with status := 0 }
  | rest => { shell with arguments := rest, status := 0 }

/-- The name and the value that an argument sets. -/
def setting? (argument : String) : Option (String × String) :=
  match argument.toList.span (· != '=') with
  | (name, _ :: value) => some (String.ofList name, String.ofList value)
  | _ => none

/-- The shell behind a command that it runs itself; nothing if there is none of that name. -/
def builtin? (shell : Shell) (line : Nat) (name : String) (arguments : List String) :
    Option Shell :=
  match name with
  | ":" | "wait" => some { shell with status := 0 }
  | "exit" => some (shell.exit line arguments)
  | "kill" => some (shell.kill line arguments)
  | "shift" => some (shell.shift line arguments)
  | "cd" => some (shell.changeDirectory line arguments)
  | "set" => some (shell.set arguments)
  | "export" => some { shell.assigned (arguments.filterMap setting?) with status := 0 }
  | "unset" => some { arguments.foldl forgetting shell with status := 0 }
  | "read" => some (shell.readLine arguments)
  | "test" => some (shell.runTest line name arguments)
  | "[" =>
    if arguments.getLast? == some "]" then some (shell.runTest line name arguments.dropLast)
    else some { shell.complain line "[: missing ]" with status := 2 }
  | _ =>
    let isOwn := !name.contains '/'
    (shell.tool? isOwn (programName name) arguments).map fun (effect, input, time) =>
      let own := name == "printf" && !effect.errors.isEmpty
      let effect := if own then
        { effect with errors := shell.name ++ ": " ++ toString line ++ ": " ++ effect.errors }
        else effect
      { shell.perform effect with input, elapsed := shell.elapsed + time }

/-- The shell behind a command that it does not find, and that complaints call so. -/
def notFound (shell : Shell) (line : Nat) (name called : String) : Shell :=
  if name.contains '/' && (shell.item? name).isSome then
    { shell.complain line (called ++ ": Permission denied") with status := 126 }
  else { shell.complain line (called ++ ": not found") with status := 127 }

end Shell
end Command
end StoryMigration
