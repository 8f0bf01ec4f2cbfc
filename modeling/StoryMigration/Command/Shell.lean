import StoryMigration.Command.Script
import StoryMigration.Command.Tool
import StoryMigration.Files.Tree

/-!
# Shells

The state of a running shell: its variables, the file tree it works on, what it has read and written, and
the time it has waited. There is no clock: only waiting takes time.
-/

namespace StoryMigration
namespace Command

/-- Where a stream goes. -/
inductive Sink where
  | output
  | errors
  /-- A pipe, by its position among those that are open. -/
  | pipe (number : Nat)
  | file (place : Place)
  | nothing
  deriving DecidableEq, Repr, Inhabited

/-- A running shell. -/
structure Shell where
  /-- What the script is called in complaints. -/
  name : String
  arguments : List String := []
  environment : List (String × String) := []
  tree : FileTree := {}
  directory : Place := []
  /-- What is left of its input. -/
  input : List UInt8 := []
  output : List UInt8 := []
  errors : List UInt8 := []
  /-- What has been written to the open pipes. -/
  pipes : List (List UInt8) := []
  /-- Where its output goes. -/
  outputTo : Sink := .output
  /-- Where its complaints go. -/
  errorsTo : Sink := .errors
  /-- The exit code of the last command. -/
  status : Nat := 0
  /-- The exit code of the last script whose output became part of a word. -/
  captured : Nat := 0
  /-- Milliseconds waited. -/
  elapsed : Nat := 0
  /-- The exit code with which it has ended, or the negative number of a signal. -/
  ending : Option Int := none
  /-- A command that fails ends it. -/
  stopsOnFailure : Bool := false
  /-- The success of what runs is being tested, so that a failure ends nothing. -/
  tested : Bool := false
  deriving Inhabited

namespace Shell

/-! ## Values -/

/-- The number by which a shell knows itself. -/
def ownNumber : String := "1"

/-- The value of a name. -/
def value (shell : Shell) (name : String) : String :=
  if name == "#" then toString shell.arguments.length
  else if name == "?" then toString shell.status
  else if name == "$" then ownNumber
  else if name == "@" || name == "*" then " ".intercalate shell.arguments
  else
    match name.toNat? with
    | some 0 => shell.name
    | some (n + 1) => shell.arguments[n]?.getD ""
    | none => ((shell.environment.reverse.find? (·.1 == name)).map (·.2)).getD ""

/-- The shell with variables set. -/
def assigned (shell : Shell) (values : List (String × String)) : Shell :=
  { shell with environment := shell.environment ++ values }

/-- The shell without a variable. -/
def forgetting (shell : Shell) (name : String) : Shell :=
  { shell with environment := shell.environment.filter (·.1 != name) }

/-- The name and the value of a word that sets a variable. -/
def assignment? (word : Word) : Option (String × Word) :=
  match word with
  | .text text false :: rest =>
    match text.toList.span (· != '=') with
    | (name, _ :: value) =>
      if !name.isEmpty && name.all Script.isNameChar && !(name.head?.any Char.isDigit) then
        some (String.ofList name, .text (String.ofList value) true :: rest)
      else none
    | _ => none
  | _ => none

/-! ## Fields -/

/-- Characters at which values are cut into fields. -/
def isCut (c : Char) : Bool := c == ' ' || c == '\t' || c == '\n'

/-- Fields of a word being put together: complete ones in reverse, and the last one if it is begun. -/
structure Fields where
  done : List String := []
  current : Option String := none

namespace Fields

/-- The last field with a text behind it. -/
def append (fields : Fields) (text : String) : Fields :=
  { fields with current := some (fields.current.getD "" ++ text) }

/-- The last field completed. -/
def close (fields : Fields) : Fields := ⟨fields.current.toList ++ fields.done, none⟩

/-- The fields of a text, cut at white space. -/
def appendCut (fields : Fields) (text : List Char) : Fields :=
  text.foldl
    (fun fields c => if isCut c then fields.close else fields.append (String.ofList [c])) fields

/-- Texts of which each starts a field, but the first one continues the last field. -/
def appendAll (fields : Fields) : List String → Fields
  | [] => fields
  | [text] => fields.append text
  | text :: rest => appendAll (fields.append text).close rest

/-- The fields, in order. -/
def toList (fields : Fields) : List String := fields.close.done.reverse

end Fields

/-- Fields with the value of a name. -/
def appendValue (shell : Shell) (fields : Fields) (name : String) (quoted : Bool) : Fields :=
  if name == "@" && quoted then fields.appendAll shell.arguments
  else if quoted then fields.append (shell.value name)
  else fields.appendCut (shell.value name).toList

/-! ## Streams -/

/-- The place a path leads to from the shell's directory, as far as it is there. -/
def find? (shell : Shell) (path : String) : Option Place :=
  let path := Path.ofString path
  if path.isAbsolute then none
  else
    match shell.tree.resolve shell.directory path.parts with
    | .ok place => some place
    | .error _ => none

/-- The file or directory at a path; one file is always there and always empty. -/
def item? (shell : Shell) (path : String) : Option Item :=
  if path == "/dev/null" then some (.file []) else (shell.find? path).bind shell.tree.item?

/-- The place of a file to write. -/
def target? (shell : Shell) (path : String) : Option Place :=
  match shell.find? path with
  | some place => if shell.tree.item? place = some .directory then none else some place
  | none =>
    let path := Path.ofString path
    (shell.find? path.parent.toString).map fun place => place ++ [path.name]

/-- A text behind what a file holds. -/
def appendToFile (tree : FileTree) (place : Place) (bytes : List UInt8) : FileTree :=
  match tree.item? place with
  | some (.file held) => tree.put place (.file (held ++ bytes))
  | _ => tree.put place (.file bytes)

/-- Leads bytes to a sink. -/
def put (shell : Shell) (sink : Sink) (bytes : List UInt8) : Shell :=
  match sink with
  | .output => { shell with output := shell.output ++ bytes }
  | .errors => { shell with errors := shell.errors ++ bytes }
  | .pipe number => { shell with pipes := shell.pipes.modify number (· ++ bytes) }
  | .file place => { shell with tree := appendToFile shell.tree place bytes }
  | .nothing => shell

/-- Prints a complaint. -/
def complain (shell : Shell) (line : Nat) (text : String) : Shell :=
  shell.put shell.errorsTo
    (Utf8.ofString (shell.name ++ ": " ++ toString line ++ ": " ++ text ++ "\n"))

/-- Prints what a tool leaves behind. -/
def perform (shell : Shell) (effect : Effect) : Shell :=
  { (shell.put shell.outputTo effect.output).put shell.errorsTo (Utf8.ofString effect.errors) with
    status := effect.code }

/-- The shell with a stream led to a sink. -/
def leading (shell : Shell) (stream : Nat) (sink : Sink) : Shell :=
  if stream = 2 then { shell with errorsTo := sink } else { shell with outputTo := sink }

/-- The shell with a stream led to a file; nothing if there is no place for it. -/
def leadingToFile? (shell : Shell) (stream : Nat) (keeps : Bool) (path : String) : Option Shell :=
  if path == "/dev/null" then some (shell.leading stream .nothing)
  else
    (shell.target? path).map fun place =>
      let tree := if keeps then appendToFile shell.tree place []
        else shell.tree.put place (.file [])
      { shell with tree }.leading stream (.file place)

/-- The shell with a new pipe that its output goes to. -/
def opened (shell : Shell) : Shell :=
  { shell with pipes := shell.pipes ++ [[]], outputTo := .pipe shell.pipes.length }

/-- What the last pipe holds. -/
def piped (shell : Shell) : List UInt8 := shell.pipes.getLast?.getD []

/-- The exit code that an ending leaves behind. -/
def codeOf (shell : Shell) : Nat :=
  match shell.ending with
  | some code => if 0 ≤ code then code.toNat else 128 + (-code).toNat
  | none => shell.status

/-- A shell behind one that ran in its place: that one's writings and its waiting last, and a signal to
one is a signal to both. -/
def behind (shell inner : Shell) : Shell :=
  { shell with
    output := inner.output
    errors := inner.errors
    pipes := inner.pipes
    tree := inner.tree
    elapsed := inner.elapsed
    status := inner.codeOf
    ending := inner.ending.filter (· < 0) }

end Shell
end Command
end StoryMigration
