import StoryMigration.Syntax.Terminator

/-!
# Lexemes

Words, punctuation, numbers, regular expressions and escape sequences: the tokens that a grammar rule
asks for by their form.
-/

namespace StoryMigration
namespace Syntax

/-- Hexadecimal digits. -/
def isHexDigit (c : Char) : Bool :=
  c.isDigit || ('a' ≤ c && c ≤ 'f') || ('A' ≤ c && c ≤ 'F')

namespace Lexeme

/-- Characters no word can hold: controls, blanks and ASCII punctuation except `$` and `_`. -/
def isBreak (c : Char) : Bool :=
  c ≤ '\x1f' || isBlank c || "!\"#%&'()*+,-./:;<=>?@[\\]^`\x7b|\x7d~".toList.contains c

/-- Number of leading characters that satisfy a test. -/
def run (test : Char → Bool) (text : List Char) : Nat := (text.takeWhile test).length

/-- Length of the escape in a word that starts the text: four hexadecimal digits, or any number of
them in braces. -/
def wordEscapeLength? (text : List Char) : Option Nat :=
  match text with
  | '\\' :: 'u' :: '\x7b' :: rest =>
    let digits := run isHexDigit rest
    if 0 < digits && (rest.drop digits).head? == some '\x7d' then some (digits + 4) else none
  | '\\' :: 'u' :: rest => if 4 ≤ run isHexDigit rest then some 6 else none
  | _ => none

/-- Length of the rest of a word. -/
def wordTail : Nat → List Char → Nat
  | 0, _ => 0
  | fuel + 1, text =>
    match text with
    | [] => 0
    | c :: rest =>
      if !isBreak c then wordTail fuel rest + 1
      else
        match wordEscapeLength? text with
        | some length => length + wordTail fuel (text.drop length)
        | none => 0

/-- Length of the word that starts the text. -/
def wordLength? (text : List Char) : Option Nat :=
  match text with
  | [] => none
  | c :: _ =>
    if c.isDigit then none
    else
      match wordTail text.length text with
      | 0 => none
      | length => some length

/-- Digits with single underscores between them. -/
def digitRun (digit : Char → Bool) : List Char → Nat
  | '_' :: d :: rest => if digit d then digitRun digit rest + 2 else 0
  | c :: rest => if digit c then digitRun digit rest + 1 else 0
  | [] => 0

/-- Digits with single underscores between them, starting with a digit. -/
def digits (digit : Char → Bool) (text : List Char) : Nat :=
  if (text.head?.map digit).getD false then digitRun digit text else 0

/-- Length of a number's exponent, zero when there is none. -/
def exponent (text : List Char) : Nat :=
  match text with
  | e :: rest =>
    if e == 'e' || e == 'E' then
      match rest with
      | sign :: more =>
        if sign == '-' || sign == '+' then
          match digits Char.isDigit more with
          | 0 => 0
          | length => length + 2
        else
          match digits Char.isDigit rest with
          | 0 => 0
          | length => length + 1
      | [] => 0
    else 0
  | [] => 0

/-- Length of a number with a base prefix. -/
def basedLength? (text : List Char) : Option Nat :=
  let withDigits (digit : Char → Bool) (rest : List Char) : Option Nat :=
    match digits digit rest with
    | 0 => none
    | length =>
      some (length + 2 + (if (rest.drop length).head? == some 'n' then 1 else 0))
  match text with
  | '0' :: base :: rest =>
    if base == 'x' || base == 'X' then withDigits isHexDigit rest
    else if base == 'b' || base == 'B' then withDigits (fun c => c == '0' || c == '1') rest
    else if base == 'o' || base == 'O' then withDigits (fun c => '0' ≤ c && c ≤ '7') rest
    else none
  | _ => none

/-- Whether digits can stand before a point or an exponent: a zero stands alone or before one more
non-zero run. -/
def isIntegerPart (whole : List Char) : Bool :=
  match whole with
  | ['0'] => true
  | '0' :: d :: _ => '1' ≤ d && d ≤ '9'
  | d :: _ => '1' ≤ d && d ≤ '9'
  | [] => false

/-- Length of the number that starts the text. -/
def numberLength? (text : List Char) : Option Nat :=
  match basedLength? text with
  | some length => some length
  | none =>
    match text with
    | '.' :: rest =>
      match digits Char.isDigit rest with
      | 0 => none
      | length => some (1 + length + exponent (rest.drop length))
    | _ =>
      match digits Char.isDigit text with
      | 0 => none
      | whole =>
        let rest := text.drop whole
        if rest.head? == some 'n' then some (whole + 1)
        else if isIntegerPart (text.take whole) then
          match rest with
          | '.' :: more =>
            let fraction := digits Char.isDigit more
            some (whole + 1 + fraction + exponent (more.drop fraction))
          | _ => some (whole + exponent rest)
        else some whole

/-- Length of the escape sequence that starts the text: an octal, hexadecimal or code point escape,
a line continuation, or any other single character behind a backslash. -/
def escapeLength? (text : List Char) : Option Nat :=
  match text with
  | '\\' :: 'u' :: _ => wordEscapeLength? text
  | '\\' :: 'x' :: rest => if 2 ≤ run isHexDigit rest then some 4 else none
  | '\\' :: '\r' :: next :: _ =>
    some (if next == '\n' || next == '\u2028' || next == '\u2029' then 3 else 2)
  | '\\' :: '?' :: next :: _ =>
    some (if next == '\n' || next == '\u2028' || next == '\u2029' then 3 else 2)
  | '\\' :: c :: rest =>
    if '0' ≤ c && c ≤ '7' then some (2 + min 2 (run (fun d => '0' ≤ d && d ≤ '7') rest))
    else some 2
  | _ => none

/-- Length of a bracketed class of a regular expression, after its opening bracket. -/
def classTail : List Char → Option Nat
  | '\\' :: c :: rest => if c == '\n' then none else (classTail rest).map (· + 2)
  | ']' :: _ => some 1
  | c :: rest => if c == '\n' || c == '\\' then none else (classTail rest).map (· + 1)
  | [] => none

/-- Length of a regular expression's pattern. -/
def patternLength : Nat → List Char → Nat
  | 0, _ => 0
  | fuel + 1, text =>
    match text with
    | '[' :: rest =>
      match classTail rest with
      | some length => length + 1 + patternLength fuel (rest.drop length)
      | none => 0
    | '\\' :: c :: rest => if c == '\n' then 0 else 2 + patternLength fuel rest
    | c :: rest => if c == '/' || c == '\\' || c == '\n' then 0 else 1 + patternLength fuel rest
    | [] => 0

/-- Length of the regular expression that starts the text, its flags included. -/
def regexLength? (text : List Char) : Option Nat :=
  match text with
  | '/' :: rest =>
    match patternLength rest.length rest with
    | 0 => none
    | length =>
      match rest.drop length with
      | '/' :: flags => some (length + 2 + run (fun c => 'a' ≤ c && c ≤ 'z') flags)
      | _ => none
  | _ => none

/-- Punctuation of more than one character, longer marks before their beginnings. -/
def longMarks : List (List Char) :=
  [">>>=", "...", "===", "!==", "**=", "<<=", ">>=", ">>>", "&&=", "||=", "??=", "=>", "==", "!=",
    "<=", ">=", "&&", "||", "??", "?.", "++", "--", "+=", "-=", "*=", "/=", "%=", "&=", "|=", "^=",
    "<<", ">>", "**"].map String.toList

/-- The longest punctuation that starts the text, empty when none does. A question mark before a
point and a digit stands alone. -/
def markOf (text : List Char) : List Char :=
  match text with
  | '?' :: '.' :: d :: _ => if d.isDigit then ['?'] else ['?', '.']
  | c :: _ =>
    match longMarks.find? (fun long => (after? long text).isSome) with
    | some long => long
    | none => if isBreak c && !isBlank c then [c] else []
  | [] => []

end Lexeme

namespace Reading

/-- Words that plain ECMAScript reserves wherever a name is expected. -/
def reservedWords : List String :=
  ["break", "case", "catch", "class", "const", "continue", "debugger", "default", "delete", "do",
    "else", "export", "extends", "false", "finally", "for", "function", "if", "import", "in",
    "instanceof", "new", "null", "return", "super", "switch", "this", "throw", "true", "try",
    "typeof", "var", "void", "while", "with"]

/-- The punctuation, as the longest that stands here. -/
def sign (text : String) : Reading Node := do
  gap
  if Lexeme.markOf (← get).rest == text.toList then take .token text.length else reject

/-- One of the given punctuation marks, as the longest that stands here. -/
def signOf (texts : List String) : Reading Node := do
  gap
  let text := String.ofList (Lexeme.markOf (← get).rest)
  if texts.contains text then take .token text.length else reject

/-- The next word, whatever it is. -/
def anyWord (kind : Kind) : Reading Node := do
  gap
  match Lexeme.wordLength? (← get).rest with
  | some length => take kind length
  | none => reject

/-- The spelling of the next word; nothing is read. -/
def nextWord : Reading (Option String) := do
  let text ← upcoming
  pure ((Lexeme.wordLength? text).map fun length => String.ofList (text.take length))

/-- The given word, as a whole. -/
def keyword (text : String) (kind : Kind := .token) : Reading Node := do
  require ((← nextWord) == some text)
  anyWord kind

/-- One of the given words. -/
def keywordOf (texts : List String) : Reading Node := do
  match ← nextWord with
  | some word => if texts.contains word then anyWord .token else reject
  | none => reject

/-- A word that is none of the given ones, as a node of the given kind. -/
def wordExcept (excluded : List String) (kind : Kind) : Reading Node := do
  match ← nextWord with
  | some word => if excluded.contains word then reject else anyWord kind
  | none => reject

/-- A name where the dialect expects nothing but a name. -/
def nameIn (dialect : Dialect) (kind : Kind := .identifier) : Reading Node :=
  wordExcept (if dialect.hasTypes then [] else reservedWords) kind

/-- A name behind `#`. -/
def privateName : Reading Node := do
  gap
  match (← get).rest with
  | '#' :: rest =>
    match Lexeme.wordLength? rest with
    | some length => take .privateName (length + 1)
    | none => reject
  | _ => reject

/-- A number. -/
def number : Reading Node := do
  gap
  match Lexeme.numberLength? (← get).rest with
  | some length => take .number length
  | none => reject

/-- A regular expression. -/
def regex : Reading Node := do
  gap
  match Lexeme.regexLength? (← get).rest with
  | some length => take .regex length
  | none => reject

/-- The escape sequence directly at the cursor. -/
def escape : Reading Node := do
  match Lexeme.escapeLength? (← get).rest with
  | some length => take .escapeSequence length
  | none => reject

/-- A run of characters directly at the cursor, as one node. -/
def runOf (kind : Kind) (test : Char → Bool) : Reading Node := do
  match Lexeme.run test (← get).rest with
  | 0 => reject
  | length => take kind length

/-- A string literal in the given quote. -/
def quoted (quote : Char) : Reading Node := do
  let opening ← mark quote.toString
  let inner ← many
    (runOf .stringFragment (fun c => c != quote && c != '\\' && c != '\r' && c != '\n') <|> escape)
  let closing ← immediately quote.toString
  build .string (opening :: inner ++ [closing])

/-- A string literal. -/
def stringLiteral : Reading Node := quoted '\'' <|> quoted '"'

/-- Items with commas between them. -/
def separated {α : Type} (item : Reading α) (toNodes : α → List Node) : Reading (List Node) := do
  let first ← item
  let rest ← many do
    let comma ← sign ","
    let next ← item
    pure (comma :: toNodes next)
  pure (toNodes first ++ rest.flatten)

/-- At least one node, with commas between them. -/
def commaSeparated (item : Reading Node) : Reading (List Node) :=
  separated item fun node => [node]

/-- Any number of nodes with commas between them and perhaps one more comma at the end. -/
def commaList (item : Reading Node) : Reading (List Node) := do
  match ← maybe (commaSeparated item) with
  | some nodes => pure (nodes ++ (← maybe (sign ",")).toList)
  | none => pure []

/-- Like `commaList`, but at least one node. -/
def commaListOne (item : Reading Node) : Reading (List Node) := do
  let nodes ← commaSeparated item
  pure (nodes ++ (← maybe (sign ",")).toList)

/-- Nodes and commas in any mixture without two nodes side by side: places may be left out. -/
def commaSlots (item : Reading Node) : Reading (List Node) := do
  let first ← maybe item
  let rest ← many do
    let comma ← sign ","
    let next ← maybe item
    pure (comma :: next.toList)
  pure (first.toList ++ rest.flatten)

/-- The end of a statement: a semicolon, or a place where none is needed. -/
def semicolon (dialect : Dialect) (operator : Bool) (signature : Bool := false) :
    Reading (List Node) := do
  match (← get).statementEnd? dialect operator signature with
  | some place =>
    set place
    pure []
  | none => (fun node => [node]) <$> sign ";"

/-- Moves to the place where a statement can end without a semicolon, if there is one. -/
def softEnd (dialect : Dialect) (operator : Bool) : Reading Unit := do
  match (← get).statementEnd? dialect operator with
  | some place => set place
  | none => pure ()

end Reading

end Syntax
end StoryMigration
