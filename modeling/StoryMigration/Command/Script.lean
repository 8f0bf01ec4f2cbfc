/-!
# Shell scripts

Lists of commands: simple ones, groups, choices and loops. Words have quotes, references to variables,
and scripts whose output they hold. A script is cut into tokens, and tokens are gathered into commands.
-/

namespace StoryMigration
namespace Command

/-- A piece of a word. -/
inductive Piece where
  /-- Characters that stand for themselves. -/
  | text (text : String) (quoted : Bool)
  /-- The value of a variable, or of an argument by its number or its sign. -/
  | reference (name : String) (quoted : Bool)
  /-- What a script prints, without the line ends behind it. -/
  | output (script : String) (quoted : Bool)
  deriving DecidableEq, Repr

/-- A word of a script. -/
abbrev Word := List Piece

/-- Where a stream is led to or comes from. -/
inductive Redirection where
  /-- Output (1) or errors (2) go where the other stream goes. -/
  | join (stream target : Nat)
  /-- Output (1) or errors (2) go to a file, behind what it holds if it is kept. -/
  | toFile (stream : Nat) (keeps : Bool) (file : Word)
  /-- Input comes from a file. -/
  | fromFile (file : Word)
  deriving DecidableEq, Repr

/-- When a command runs. -/
inductive Condition where
  | always
  /-- If the one before it succeeded. -/
  | success
  /-- If the one before it failed. -/
  | failure
  deriving DecidableEq, Repr, Inhabited

/-- Things of which each reads what the one before it writes. -/
structure Pipeline (α : Type) where
  condition : Condition
  /-- Success and failure are swapped. -/
  negated : Bool
  commands : List α

/-- A command of a script. -/
inductive ScriptCommand where
  /-- Words of which the first one names what is to be run; the line it stands on. -/
  | simple (words : List Word) (redirections : List Redirection) (line : Nat)
  /-- Commands that stand together, perhaps in a shell of their own. -/
  | group (ownShell : Bool) (body : List (Pipeline ScriptCommand)) (redirections : List Redirection)
  /-- One of two bodies, as the test ends. -/
  | choice (test body otherwise : List (Pipeline ScriptCommand)) (redirections : List Redirection)
  /-- A body again and again, while the test ends so. -/
  | loop (whileSuccess : Bool) (test body : List (Pipeline ScriptCommand))
      (redirections : List Redirection)
  /-- A body for each of some words, or of the arguments. -/
  | each (name : String) (words : Option (List Word)) (body : List (Pipeline ScriptCommand))
      (redirections : List Redirection)

/-- A script. -/
abbrev Script := List (Pipeline ScriptCommand)

/-- Why a script cannot be read. -/
inductive ScriptError where
  | openQuote
  | unexpected (sign : String)
  /-- Something stands where another sign has to be. -/
  | expected (sign other : String)
  | badLoopVariable
  deriving DecidableEq, Repr

/-- A script error in words. -/
def ScriptError.message : ScriptError → String
  | openQuote => "Syntax error: Unterminated quoted string"
  | unexpected sign => "Syntax error: " ++ sign ++ " unexpected"
  | expected sign other =>
    "Syntax error: " ++ sign ++ " unexpected (expecting \"" ++ other ++ "\")"
  | badLoopVariable => "Syntax error: Bad for loop variable"

namespace Script

/-- A token of a script. -/
inductive Token where
  | word (word : Word)
  /-- `;`, `;;`, `&`, `&&`, `||`, `|`, a parenthesis or a line end. -/
  | sign (sign : String)
  /-- `>`, `>>`, `>&` or `<` with the stream it leads. -/
  | arrow (sign : String) (stream : Nat)
  deriving DecidableEq, Repr

/-- Where the reader of tokens is. -/
inductive Mode where
  /-- Outside of quotes. -/
  | plain
  /-- Between single quotes. -/
  | single
  /-- Between double quotes. -/
  | double
  /-- In a comment. -/
  | comment
  deriving DecidableEq, Repr

/-- A token being read. -/
structure Draft where
  /-- Pieces that are complete, in reverse. -/
  pieces : Word := []
  /-- Characters of the piece being read, in reverse. -/
  chars : List Char := []
  quoted : Bool := false
  /-- There is a word, if only an empty one. -/
  isWord : Bool := false

namespace Draft

/-- The draft with a character more. -/
def push (draft : Draft) (quoted : Bool) (c : Char) : Draft :=
  if draft.quoted = quoted || draft.chars.isEmpty then
    { draft with chars := c :: draft.chars, quoted, isWord := true }
  else
    { pieces := .text (String.ofList draft.chars.reverse) draft.quoted :: draft.pieces
      chars := [c], quoted, isWord := true }

/-- The pieces so far, in reverse. -/
def closed (draft : Draft) : Word :=
  if draft.chars.isEmpty then draft.pieces
  else .text (String.ofList draft.chars.reverse) draft.quoted :: draft.pieces

/-- The draft with a piece more. -/
def add (draft : Draft) (piece : Piece) : Draft :=
  { pieces := piece :: draft.closed, isWord := true }

/-- The token of a draft. -/
def tokens (draft : Draft) : List Token :=
  if draft.isWord then [.word draft.closed.reverse] else []

/-- The stream that the draft names in front of an arrow, if it does. -/
def stream? (draft : Draft) : Option Nat :=
  if draft.pieces.isEmpty && !draft.quoted then
    match draft.chars with
    | [c] => if c.isDigit then some (c.toNat - '0'.toNat) else none
    | _ => none
  else none

end Draft

/-- Characters of the names of variables. -/
def isNameChar (c : Char) : Bool := c.isAlphanum || c == '_'

/-- Arguments and values that are named by a sign. -/
def isSpecialName (c : Char) : Bool :=
  c == '@' || c == '*' || c == '#' || c == '?' || c == '$'

/-- The name of a variable behind its dollar sign, and what is left behind it. -/
def name? (text : List Char) : Option (String × List Char) :=
  match text with
  | '\x7b' :: rest =>
    match rest.span (· != '\x7d') with
    | (name, _ :: rest) => some (String.ofList name, rest)
    | _ => none
  | c :: rest =>
    if isSpecialName c || c.isDigit then some (String.ofList [c], rest)
    else if isNameChar c then
      let (name, rest) := (c :: rest).span isNameChar
      some (String.ofList name, rest)
    else none
  | [] => none

/-- The script up to the parenthesis that closes it, and what is left behind; `depth` parentheses are
open in it. -/
def upToClosing? (depth : Nat) (quote : Option Char) : List Char → Option (List Char × List Char)
  | [] => none
  | c :: rest =>
    let more (depth : Nat) (quote : Option Char) :=
      (upToClosing? depth quote rest).map fun (script, behind) => (c :: script, behind)
    match quote with
    | some q => more depth (if c == q then none else quote)
    | none =>
      if c == '\'' || c == '"' then more depth (some c)
      else if c == '(' then more (depth + 1) none
      else if c == ')' then
        match depth with
        | 0 => some ([], rest)
        | depth + 1 => more depth none
      else more depth none

/-- What stands behind a dollar sign or is enclosed in grave accents, as a piece, and what is left behind
it. -/
def piece? (quoted : Bool) (text : List Char) : Option (Piece × List Char) :=
  match text with
  | '$' :: '(' :: rest =>
    (upToClosing? 0 none rest).map fun (script, rest) =>
      (.output (String.ofList script) quoted, rest)
  | '$' :: rest => (name? rest).map fun (name, rest) => (.reference name quoted, rest)
  | '\x60' :: rest =>
    match rest.span (· != '\x60') with
    | (script, _ :: rest) => some (.output (String.ofList script) quoted, rest)
    | _ => none
  | _ => none

/-- The tokens of the rest of a script; `fuel` bounds its length. -/
def tokensFrom (fuel : Nat) (mode : Mode) (draft : Draft) (text : List Char) :
    Except ScriptError (List Token) :=
  match fuel with
  | 0 => .ok draft.tokens
  | fuel + 1 =>
    let sign (s : String) (rest : List Char) : Except ScriptError (List Token) := do
      pure (draft.tokens ++ .sign s :: (← tokensFrom fuel .plain {} rest))
    let arrow (s : String) (rest : List Char) : Except ScriptError (List Token) := do
      let (before, stream) :=
        match draft.stream? with
        | some stream => ([], stream)
        | none => (draft.tokens, if s == "<" then 0 else 1)
      pure (before ++ .arrow s stream :: (← tokensFrom fuel .plain {} rest))
    match mode, text with
    | .plain, [] => .ok draft.tokens
    | .comment, [] => .ok draft.tokens
    | .single, [] => .error .openQuote
    | .double, [] => .error .openQuote
    | .comment, c :: rest =>
      tokensFrom fuel (if c == '\n' then .plain else .comment) draft
        (if c == '\n' then c :: rest else rest)
    | .single, c :: rest =>
      if c == '\'' then tokensFrom fuel .plain { draft with isWord := true } rest
      else tokensFrom fuel .single (draft.push true c) rest
    | .double, '"' :: rest => tokensFrom fuel .plain { draft with isWord := true } rest
    | .double, '\\' :: '\n' :: rest => tokensFrom fuel .double draft rest
    | .double, '\\' :: c :: rest =>
      if c == '$' || c == '"' || c == '\\' || c == '\x60' then
        tokensFrom fuel .double (draft.push true c) rest
      else tokensFrom fuel .double ((draft.push true '\\').push true c) rest
    | .double, c :: rest =>
      match piece? true (c :: rest) with
      | some (piece, rest) => tokensFrom fuel .double (draft.add piece) rest
      | none => tokensFrom fuel .double (draft.push true c) rest
    | .plain, '\'' :: rest =>
      tokensFrom fuel .single (draft.add (.text "" true)) rest
    | .plain, '"' :: rest =>
      let opened := if "$@\"".toList.isPrefixOf rest then draft else draft.add (.text "" true)
      tokensFrom fuel .double opened rest
    | .plain, '\\' :: '\n' :: rest => tokensFrom fuel .plain draft rest
    | .plain, '\\' :: c :: rest => tokensFrom fuel .plain (draft.push true c) rest
    | .plain, '\n' :: rest => sign "\n" rest
    | .plain, ';' :: ';' :: rest => sign ";;" rest
    | .plain, ';' :: rest => sign ";" rest
    | .plain, '(' :: rest => sign "(" rest
    | .plain, ')' :: rest => sign ")" rest
    | .plain, '&' :: '&' :: rest => sign "&&" rest
    | .plain, '&' :: rest => sign "&" rest
    | .plain, '|' :: '|' :: rest => sign "||" rest
    | .plain, '|' :: rest => sign "|" rest
    | .plain, '>' :: '&' :: rest => arrow ">&" rest
    | .plain, '>' :: '>' :: rest => arrow ">>" rest
    | .plain, '>' :: rest => arrow ">" rest
    | .plain, '<' :: rest => arrow "<" rest
    | .plain, c :: rest =>
      if c == ' ' || c == '\t' then
        return draft.tokens ++ (← tokensFrom fuel .plain {} rest)
      else if c == '#' && !draft.isWord then tokensFrom fuel .comment draft rest
      else
        match piece? false (c :: rest) with
        | some (piece, rest) => tokensFrom fuel .plain (draft.add piece) rest
        | none => tokensFrom fuel .plain (draft.push false c) rest

/-! ## Commands -/

/-- The text of a word without quotes and references. -/
def plain? : Word → Option String
  | [.text text false] => some text
  | _ => none

/-- Words that end a list of commands. -/
def closers : List String := ["then", "elif", "else", "fi", "do", "done", "\x7d"]

/-- A token as complaints show it. -/
def Token.text : Token → String
  | word w => ((plain? w).map fun s => "\"" ++ s ++ "\"").getD "word"
  | sign "\n" => "newline"
  | sign s => "\"" ++ s ++ "\""
  | arrow _ _ => "redirection"

/-- The next token as complaints show it. -/
def nextText : List Token → String
  | [] => "end of file"
  | token :: _ => token.text

/-- The complaint about the next token. -/
def unexpected (tokens : List Token) : ScriptError := .unexpected (nextText tokens)

/-- The stream a word names. -/
def streamOf? (word : Word) : Option Nat := (plain? word).bind String.toNat?

/-- The redirection of an arrow and the word behind it. -/
def redirectionOf (arrow : String) (stream : Nat) (file : Word) : Redirection :=
  if arrow == "<" then .fromFile file
  else if arrow == ">&" then
    match streamOf? file with
    | some target => .join stream target
    | none => .toFile stream false file
  else .toFile stream (arrow == ">>") file

/-- The words and redirections of a simple command, and what is left behind them. -/
def simpleParts : List Token → Except ScriptError (List Word × List Redirection × List Token)
  | .word word :: rest => do
    let (words, redirections, rest) ← simpleParts rest
    pure (word :: words, redirections, rest)
  | .arrow arrow stream :: .word file :: rest => do
    let (words, redirections, rest) ← simpleParts rest
    pure (words, redirectionOf arrow stream file :: redirections, rest)
  | .arrow _ _ :: rest => .error (unexpected rest)
  | rest => .ok ([], [], rest)

/-- The redirections behind a compound command, and what is left behind them. -/
def redirections (tokens : List Token) : Except ScriptError (List Redirection × List Token) := do
  match ← simpleParts tokens with
  | ([], redirections, rest) => pure (redirections, rest)
  | (word :: _, _, _) => throw (unexpected [.word word])

/-- What is left behind line ends. -/
def skipLines (tokens : List Token) : List Token := tokens.dropWhile (· == .sign "\n")

/-- What is left behind signs that end a command. -/
def skipEnds (tokens : List Token) : List Token :=
  tokens.dropWhile fun token => token == .sign "\n" || token == .sign ";"

/-- What is left behind a word that has to be there. -/
def expect (name : String) (tokens : List Token) : Except ScriptError (List Token) :=
  match tokens with
  | .word word :: rest =>
    if plain? word = some name then .ok rest else .error (.expected (nextText tokens) name)
  | _ => .error (.expected (nextText tokens) name)

/-- Whether a list of commands ends at the next token. -/
def isClosed : List Token → Bool
  | [] => true
  | .sign ")" :: _ => true
  | .sign ";;" :: _ => true
  | .word word :: _ => (plain? word).any closers.contains
  | _ => false

/-- The line a command stands on, from the tokens of the whole script and those that are left. -/
def lineOf (all left : List Token) : Nat :=
  1 + ((all.take (all.length - left.length)).filter (· == .sign "\n")).length

mutual

/-- The commands up to the end of a list, and what is left behind them; `fuel` bounds how deep they
are. -/
def commands (fuel : Nat) (all : List Token) (condition : Condition) (tokens : List Token) :
    Except ScriptError (Script × List Token) :=
  match fuel with
  | 0 => .error (unexpected tokens)
  | fuel + 1 =>
    let tokens := skipLines tokens
    if isClosed tokens then
      if condition = .always then .ok ([], tokens) else .error (unexpected tokens)
    else do
      let (negated, tokens) :=
        match tokens with
        | .word [.text "!" false] :: rest => (true, rest)
        | tokens => (false, tokens)
      let (piped, rest) ← pipeline fuel all tokens
      let here : Pipeline ScriptCommand := ⟨condition, negated, piped⟩
      let next (condition : Condition) (rest : List Token) := do
        let (others, rest) ← commands fuel all condition rest
        pure (here :: others, rest)
      match rest with
      | .sign "&&" :: rest => next .success rest
      | .sign "||" :: rest => next .failure rest
      | .sign ")" :: _ => pure ([here], rest)
      | .sign sign :: others =>
        if sign == ";" || sign == "&" || sign == "\n" then next .always others
        else throw (unexpected rest)
      | rest => pure ([here], rest)

/-- Commands joined by bars, and what is left behind them. -/
def pipeline (fuel : Nat) (all : List Token) (tokens : List Token) :
    Except ScriptError (List ScriptCommand × List Token) :=
  match fuel with
  | 0 => .error (unexpected tokens)
  | fuel + 1 => do
    let (first, rest) ← command fuel all tokens
    match rest with
    | .sign "|" :: rest =>
      let (others, rest) ← pipeline fuel all (skipLines rest)
      pure (first :: others, rest)
    | rest => pure ([first], rest)

/-- A command and what is left behind it. -/
def command (fuel : Nat) (all : List Token) (tokens : List Token) :
    Except ScriptError (ScriptCommand × List Token) :=
  match fuel with
  | 0 => .error (unexpected tokens)
  | fuel + 1 =>
    match tokens with
    | .sign "(" :: rest => do
      let (body, rest) ← commands fuel all .always rest
      match rest with
      | .sign ")" :: rest =>
        let (redirections, rest) ← redirections rest
        pure (.group true body redirections, rest)
      | rest => throw (.expected (nextText rest) ")")
    | .word [.text "\x7b" false] :: rest => do
      let (body, rest) ← commands fuel all .always rest
      let (redirections, rest) ← redirections (← expect "\x7d" rest)
      pure (.group false body redirections, rest)
    | .word [.text "if" false] :: rest => choice fuel all rest
    | .word [.text "while" false] :: rest => loop fuel all true rest
    | .word [.text "until" false] :: rest => loop fuel all false rest
    | .word [.text "for" false] :: .word [.text name false] :: rest => do
      let (words, rest) ←
        match rest with
        | .word [.text "in" false] :: rest => do
          let (words, _, rest) ← simpleParts rest
          pure (some words, rest)
        | rest => pure (none, rest)
      let (body, rest) ← commands fuel all .always (← expect "do" (skipEnds rest))
      let (redirections, rest) ← redirections (← expect "done" rest)
      pure (.each name words body redirections, rest)
    | .word [.text "for" false] :: _ => throw .badLoopVariable
    | tokens => do
      let (words, redirections, rest) ← simpleParts tokens
      if words.isEmpty && redirections.isEmpty then throw (unexpected rest)
      pure (.simple words redirections (lineOf all tokens), rest)

/-- What stands behind `if` or `elif`, and what is left behind it. -/
def choice (fuel : Nat) (all : List Token) (tokens : List Token) :
    Except ScriptError (ScriptCommand × List Token) :=
  match fuel with
  | 0 => .error (unexpected tokens)
  | fuel + 1 => do
    let (test, rest) ← commands fuel all .always tokens
    let (body, rest) ← commands fuel all .always (← expect "then" rest)
    match rest with
    | .word [.text "elif" false] :: rest =>
      let (other, rest) ← choice fuel all rest
      pure (.choice test body [⟨.always, false, [other]⟩] [], rest)
    | .word [.text "else" false] :: rest =>
      let (otherwise, rest) ← commands fuel all .always rest
      let (redirections, rest) ← redirections (← expect "fi" rest)
      pure (.choice test body otherwise redirections, rest)
    | rest =>
      let (redirections, rest) ← redirections (← expect "fi" rest)
      pure (.choice test body [] redirections, rest)

/-- What stands behind `while` or `until`, and what is left behind it. -/
def loop (fuel : Nat) (all : List Token) (whileSuccess : Bool) (tokens : List Token) :
    Except ScriptError (ScriptCommand × List Token) :=
  match fuel with
  | 0 => .error (unexpected tokens)
  | fuel + 1 => do
    let (test, rest) ← commands fuel all .always tokens
    let (body, rest) ← commands fuel all .always (← expect "do" rest)
    let (redirections, rest) ← redirections (← expect "done" rest)
    pure (.loop whileSuccess test body redirections, rest)

end

/-- The script that a text writes. -/
def read (text : String) : Except ScriptError Script := do
  let tokens ← tokensFrom (2 * text.length + 1) .plain {} text.toList
  let (script, rest) ← commands (4 * tokens.length + 4) tokens .always tokens
  if rest.isEmpty then pure script else throw (unexpected rest)

end Script
end Command
end StoryMigration
