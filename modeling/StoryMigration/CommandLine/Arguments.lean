import StoryMigration.Data.Check

/-!
# Command line arguments

Options may stand anywhere among the other arguments; two hyphens end them. Long options take their
value behind an equals sign or from the next argument, short ones from the rest of the argument or from
the next one, and short options without values may share a hyphen. Arguments without hyphens are all
paths.
-/

namespace StoryMigration
namespace CommandLine

/-- What the arguments of a migration ask for. -/
structure MigrateArguments where
  paths : List String := []
  patterns : List String := []
  isTrial : Bool := false
  showDifferences : Bool := false
  backup : Bool := false
  workers : Option Int := none
  quoteStyle : Option String := none
  tabWidth : Option Int := none
  trailingComma : Option Bool := none
  preserveNames : Option Bool := none
  formatter : Option String := none
  verbose : Bool := false
  help : Bool := false
  deriving Repr, Inhabited

/-- What an option does. -/
inductive Effect where
  /-- It changes what is asked for. -/
  | flag (change : MigrateArguments → MigrateArguments)
  /-- It takes a value, which may be refused. -/
  | value (change : String → MigrateArguments → Option MigrateArguments)

/-- A value that is a whole number. -/
def integer? (text : String) : Option Int :=
  let (negative, unsigned) :=
    match trimWhite text.toList with
    | '-' :: rest => (true, rest)
    | '+' :: rest => (false, rest)
    | rest => (false, rest)
  (Value.digitsOf? unsigned).map fun n => if negative then -(n : Int) else n

/-- What the option of a name does. -/
def effect? : String → Option Effect
  | "--glob" => some patternEffect
  | "-g" => some patternEffect
  | "--dry-run" => some trialEffect
  | "-n" => some trialEffect
  | "--diff" => some (.flag fun a => { a with showDifferences := true })
  | "--backup" => some (.flag fun a => { a with backup := true })
  | "--workers" => some workersEffect
  | "-w" => some workersEffect
  | "--quote" => some (.value fun v a => some { a with quoteStyle := some v })
  | "--tab-width" =>
    some (.value fun v a => (integer? v).map fun n => { a with tabWidth := some n })
  | "--trailing-comma" => some (.flag fun a => { a with trailingComma := some true })
  | "--no-trailing-comma" => some (.flag fun a => { a with trailingComma := some false })
  | "--preserve-names" => some (.flag fun a => { a with preserveNames := some true })
  | "--drop-names" => some (.flag fun a => { a with preserveNames := some false })
  | "--prettier" => some (.value fun v a => some { a with formatter := some v })
  | "--verbose" => some verboseEffect
  | "-v" => some verboseEffect
  | "--help" => some (.flag fun a => { a with help := true })
  | _ => none
where
  patternEffect : Effect := .value fun v a => some { a with patterns := a.patterns ++ [v] }
  trialEffect : Effect := .flag fun a => { a with isTrial := true }
  workersEffect : Effect :=
    .value fun v a => (integer? v).map fun n => { a with workers := some n }
  verboseEffect : Effect := .flag fun a => { a with verbose := true }

/-- What is asked for so far, and whether the next argument is the value of an option. -/
inductive Reading where
  | ready (asked : MigrateArguments)
  /-- An option waits for its value. -/
  | waiting (asked : MigrateArguments)
      (change : String → MigrateArguments → Option MigrateArguments)
  /-- Only paths follow. -/
  | pathsOnly (asked : MigrateArguments)
  /-- The arguments make no sense. -/
  | broken

/-- A long option with or without its value. -/
def readLong (asked : MigrateArguments) (argument : String) : Reading :=
  let (name, rest) := argument.toList.span (· != '=')
  let value? := if rest.isEmpty then none else some (String.ofList (rest.drop 1))
  match effect? (String.ofList name), value? with
  | some (.flag change), none => .ready (change asked)
  | some (.value change), some value => ((change value asked).map .ready).getD .broken
  | some (.value change), none => .waiting asked change
  | _, _ => .broken

/-- Short options behind one hyphen. -/
def readShort (asked : MigrateArguments) : List Char → Reading
  | [] => .ready asked
  | c :: rest =>
    match effect? (String.ofList ['-', c]) with
    | some (.flag change) => readShort (change asked) rest
    | some (.value change) =>
      if rest.isEmpty then .waiting asked change
      else ((change (String.ofList rest) asked).map .ready).getD .broken
    | none => .broken

/-- One argument more. -/
def Reading.step (reading : Reading) (argument : String) : Reading :=
  match reading with
  | .ready asked =>
    match argument.toList with
    | ['-', '-'] => .pathsOnly asked
    | '-' :: '-' :: _ => readLong asked argument
    | '-' :: c :: rest => readShort asked (c :: rest)
    | _ => .ready { asked with paths := asked.paths ++ [argument] }
  | .waiting asked change => ((change argument asked).map .ready).getD .broken
  | .pathsOnly asked => .pathsOnly { asked with paths := asked.paths ++ [argument] }
  | .broken => .broken

/-- What arguments ask for, if they make sense. -/
def MigrateArguments.read? (arguments : List String) : Option MigrateArguments :=
  match arguments.foldl Reading.step (.ready {}) with
  | .ready asked => some asked
  | .pathsOnly asked => some asked
  | .waiting _ _ => none
  | .broken => none

/-- What a command line asks for. -/
inductive Invocation where
  | migrate (asked : MigrateArguments)
  /-- The names of all changes. -/
  | transforms
  /-- How the program is used. -/
  | help
  /-- It makes no sense. -/
  | misuse
  deriving Repr

/-- What some arguments of the program ask for. Its own options stand before the command. -/
def Invocation.read : List String → Invocation
  | "--" :: command :: rest => ofCommand command rest
  | "--help" :: _ => .help
  | command :: rest => ofCommand command rest
  | [] => .misuse
where
  /-- What a command asks for with its arguments. -/
  ofCommand (command : String) (rest : List String) : Invocation :=
    match command with
    | "migrate" =>
      match MigrateArguments.read? rest with
      | some asked =>
        if asked.help then .help else if asked.paths.isEmpty then .misuse else .migrate asked
      | none => .misuse
    | "transforms" =>
      match rest with
      | [] => .transforms
      | ["--"] => .transforms
      | ["--help"] => .help
      | _ => .misuse
    | _ => .misuse

end CommandLine
end StoryMigration
