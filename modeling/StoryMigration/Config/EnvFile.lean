import StoryMigration.Text.Blank
import StoryMigration.Text.Newline

/-!
# Files of environment variables

A line gives a variable a value: a name, an equals sign, and a text that may stand in quotes. A line
that has no sense is skipped. A value may refer to other variables and say what stands for a missing
one.
-/

namespace StoryMigration
namespace Config

/-- Variables and their values; one may be named without a value. -/
abbrev Bindings := List (String × Option String)

namespace EnvFile

/-- Line ends. -/
def isBreak (c : Char) : Bool := c == '\n' || c == '\r'

/-- White space within a line. -/
def isGap (c : Char) : Bool := isWhite c && !isBreak c

/-- What is left behind the end of a line, if white space is all that stands before it. -/
def lineEnd? (text : List Char) : Option (List Char) :=
  match text.dropWhile isGap with
  | '\r' :: '\n' :: rest => some rest
  | [] => some []
  | c :: rest => if isBreak c then some rest else none

/-- What is left behind a comment, if there is one. -/
def skipComment (text : List Char) : List Char :=
  match text.dropWhile isGap with
  | '#' :: rest => rest.dropWhile (!isBreak ·)
  | _ => text

/-- What is left behind the rest of a line. -/
def skipLine (text : List Char) : List Char :=
  match text.dropWhile (!isBreak ·) with
  | '\r' :: '\n' :: rest => rest
  | rest => rest.drop 1

/-- What is left behind the word that marks variables for other programs. -/
def skipExport (text : List Char) : List Char :=
  if "export".toList.isPrefixOf text then
    match text.drop 6 with
    | c :: rest => if isGap c then rest.dropWhile isGap else text
    | [] => text
  else text

/-- The characters up to a quote that no backslash stands before, and what is left behind it. -/
def quoted? (quote : Char) : List Char → Option (List Char × List Char)
  | [] => none
  | [c] => if c == quote then some ([], []) else none
  | c :: d :: rest =>
    if c == quote then some ([], d :: rest)
    else if c == '\\' && d == quote then
      match quoted? quote rest with
      | some (text, rest) => some (c :: d :: text, rest)
      | none => some ([c], rest)
    else (quoted? quote (d :: rest)).map fun (text, rest) => (c :: text, rest)

/-- The character of a letter behind a backslash in double quotes. -/
def escape? : Char → Option Char
  | '\\' => some '\\'
  | '\'' => some '\''
  | '"' => some '"'
  | 'a' => some '\x07'
  | 'b' => some '\x08'
  | 'f' => some '\x0c'
  | 'n' => some '\n'
  | 'r' => some '\r'
  | 't' => some '\t'
  | 'v' => some '\x0b'
  | _ => none

/-- The character of a letter behind a backslash in single quotes. -/
def plainEscape? : Char → Option Char
  | '\\' => some '\\'
  | '\'' => some '\''
  | _ => none

/-- A text with its escapes read. -/
def unescaped (escape? : Char → Option Char) : List Char → List Char
  | '\\' :: c :: rest =>
    match escape? c with
    | some character => character :: unescaped escape? rest
    | none => '\\' :: unescaped escape? (c :: rest)
  | c :: rest => c :: unescaped escape? rest
  | [] => []

/-- A text up to the white space before the first `#` that has some before it. -/
def beforeComment (text : List Char) : List Char :=
  match text with
  | [] => []
  | c :: rest =>
    if isWhite c && (text.dropWhile isWhite).head? == some '#' then []
    else c :: beforeComment rest

/-- A text without white space at its end. -/
def trimEnd (text : List Char) : List Char := (text.reverse.dropWhile isWhite).reverse

/-- A value and what is left behind it. -/
def value? (text : List Char) : Option (List Char × List Char) :=
  match text with
  | '\'' :: rest => (quoted? '\'' rest).map fun (v, rest) => (unescaped plainEscape? v, rest)
  | '"' :: rest => (quoted? '"' rest).map fun (v, rest) => (unescaped escape? v, rest)
  | text =>
    let (line, rest) := text.span (!isBreak ·)
    some (trimEnd (beforeComment line), rest)

/-- The name of a variable and what is left behind it. -/
def name? (text : List Char) : Option (List Char × List Char) :=
  match text with
  | '\'' :: rest =>
    match rest.span (· != '\'') with
    | ([], _) => none
    | (name, '\'' :: rest) => some (name, rest)
    | _ => none
  | text =>
    match text.span fun c => c != '=' && c != '#' && !isWhite c with
    | ([], _) => none
    | found => some found

/-- What is said, if the line ends behind it, and what is left behind the line. -/
def finished (said : Option (String × Option String)) (text : List Char) :
    Option (String × Option String) × List Char :=
  let text := skipComment text
  match lineEnd? text with
  | some rest => (said, rest)
  | none => (none, skipLine text)

/-- What one line says, if it makes sense, and what is left behind it. -/
def binding (text : List Char) : Option (String × Option String) × List Char :=
  let text := skipExport text
  if text.head? == some '#' then finished none text
  else
    match name? text with
    | none => (none, skipLine text)
    | some (name, rest) =>
      let name := String.ofList name
      match rest.dropWhile isGap with
      | '=' :: rest =>
        let rest := rest.dropWhile isGap
        match value? rest with
        | some (value, rest) => finished (some (name, some (String.ofList value))) rest
        | none => (none, skipLine rest)
      | rest => finished (some (name, none)) rest

/-- What all lines say; `fuel` bounds how many are read. -/
def bindings (fuel : Nat) (text : List Char) : Bindings :=
  match fuel with
  | 0 => []
  | fuel + 1 =>
    match text.dropWhile isWhite with
    | [] => []
    | text =>
      let (said, rest) := binding text
      said.toList ++ bindings fuel rest

/-- The value of a variable, the last one set. -/
def lookup? (known : Bindings) (name : String) : Option (Option String) :=
  (known.reverse.find? (·.1 == name)).map (·.2)

/-- The rest of a reference behind its opening brace: the name, the text for a missing variable, and
what is left behind the closing brace. -/
def reference? (text : List Char) : Option (String × String × List Char) :=
  let (name, rest) := text.span fun c => c != '\x7d' && c != ':'
  match rest with
  | '\x7d' :: rest => some (String.ofList name, "", rest)
  | ':' :: '-' :: rest =>
    match rest.span (· != '\x7d') with
    | (otherwise, '\x7d' :: rest) => some (String.ofList name, String.ofList otherwise, rest)
    | _ => none
  | _ => none

/-- A text with the values of the variables it refers to; `fuel` bounds its length. -/
def filledIn (fuel : Nat) (known : Bindings) (text : List Char) : List Char :=
  match fuel with
  | 0 => []
  | fuel + 1 =>
    match text with
    | '$' :: '\x7b' :: rest =>
      match reference? rest with
      | some (name, otherwise, rest) =>
        let value :=
          match lookup? known name with
          | some value => value.getD ""
          | none => otherwise
        value.toList ++ filledIn fuel known rest
      | none => '$' :: filledIn fuel known ('\x7b' :: rest)
    | c :: rest => c :: filledIn fuel known rest
    | [] => []

/-- The values of variables, in which references are filled in from the environment and from the
variables before. -/
def resolved (environment : Bindings) : Bindings → Bindings
  | [] => []
  | (name, value) :: rest =>
    let value := value.map fun v =>
      String.ofList (filledIn (v.length + 1) environment v.toList)
    (name, value) :: resolved (environment ++ [(name, value)]) rest

end EnvFile

/-- The variables that the text of a file sets. -/
def Bindings.ofFile (environment : Bindings) (text : String) : Bindings :=
  let chars := Newline.unified text.toList
  EnvFile.resolved environment (EnvFile.bindings (chars.length + 1) chars)

end Config
end StoryMigration
