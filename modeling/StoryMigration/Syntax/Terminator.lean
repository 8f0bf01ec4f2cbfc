import StoryMigration.Syntax.Reading

/-!
# Where a statement ends without a semicolon

A line end, a closing brace or the end of the source can end a statement, unless what follows must
continue it. The two families of dialects look at the following text in slightly different ways, and
the decision also depends on whether a binary operator could stand at the place.
-/

namespace StoryMigration
namespace Syntax

/-- White space in the sense of the C locale's character classes. -/
def isSpace (c : Char) : Bool :=
  ('\t' ≤ c && c ≤ '\r') || c == ' ' || c == '\u1680' || ('\u2000' ≤ c && c ≤ '\u2006')
    || ('\u2008' ≤ c && c ≤ '\u200a') || c == '\u2028' || c == '\u2029' || c == '\u205f'
    || c == '\u3000'

namespace Terminator

/-- What was met when looking past blanks and comments. -/
inductive Passed where
  /-- A slash that starts no comment. -/
  | slash
  /-- A block comment on one line, with the text after it. -/
  | sameLine (rest : List Char)
  /-- Something else, with the text from there on. -/
  | beyond (rest : List Char)

/-- The text from the next line end on; `feedOnly` recognises line feeds alone. -/
def toLineEnd (feedOnly : Bool) (text : List Char) : List Char :=
  text.dropWhile fun c => if feedOnly then c != '\n' else !isLineEnd c

/-- The text after the next `*/` and whether a line end was passed on the way. -/
def afterBlock : Bool → List Char → List Char × Bool
  | sawLine, '*' :: '/' :: rest => (rest, sawLine)
  | sawLine, c :: rest => afterBlock (sawLine || isLineEnd c) rest
  | sawLine, [] => ([], sawLine)

/-- Looks past blanks and comments. Without `all`, a block comment ends the look unless another
comment stands directly behind it. -/
def pass (feedOnly all : Bool) : Nat → List Char → Passed
  | 0, text => .beyond text
  | fuel + 1, text =>
    match text.dropWhile isSpace with
    | '/' :: '/' :: rest => pass feedOnly all fuel (toLineEnd feedOnly rest)
    | '/' :: '*' :: rest =>
      match afterBlock false rest with
      | (next, sawLine) =>
        if all || next.head? == some '/' then pass feedOnly all fuel next
        else if sawLine then .beyond next
        else .sameLine next
    | '/' :: _ => .slash
    | next => .beyond next

/-- Whether a text's first character is an ASCII letter. -/
def startsWithLetter (text : List Char) : Bool :=
  match text with
  | c :: _ => c.isAlpha
  | [] => false

/-- Whether a text starts with `in` or `instanceof` as a whole word. -/
def startsWithRelation (text : List Char) : Bool :=
  match text with
  | 'i' :: 'n' :: rest =>
    if !startsWithLetter rest then true
    else
      match after? "stanceof".toList rest with
      | some beyond => !startsWithLetter beyond
      | none => false
  | _ => false

/-- After a line end, whether the text lets the statement end, as far as its first characters are
the same for all dialects. -/
def allowsNewStatement (text : List Char) : Bool :=
  match text with
  | '+' :: rest => rest.head? == some '+'
  | '-' :: rest => rest.head? == some '-'
  | '!' :: rest => rest.head? != some '='
  | c :: _ => !("`,:;*%><=?^|&/".toList.contains c) && !startsWithRelation text
  | [] => true

/-- Whether the text after a line end starts a new statement in plain ECMAScript. -/
def startsPlain (text : List Char) : Bool :=
  match pass false true text.length text with
  | .slash => false
  | .sameLine rest | .beyond rest =>
    match rest with
    | '.' :: next => (next.head?.map Char.isDigit).getD false
    | c :: _ => c != '[' && c != '(' && allowsNewStatement rest
    | [] => true

/-- Whether the text after a line end starts a new statement in the typed dialects. A bracket or
parenthesis continues an expression (`operator`) and not a type; a brace continues a signature. -/
def startsTyped (operator signature : Bool) (text : List Char) : Bool :=
  match pass true true text.length text with
  | .slash => false
  | .sameLine rest | .beyond rest =>
    match rest with
    | '.' :: _ => false
    | '{' :: _ => !signature
    | '(' :: _ => !operator
    | '[' :: _ => !operator
    | _ => allowsNewStatement rest

/-- Whether a statement can end behind a comment that has been passed: its line goes on, or the source
ends and the comment belongs to the statement. `again` asks the question behind a blank. -/
def settles (again : List Char → Bool) (text : List Char) : Bool :=
  match text with
  | [] => false
  | c :: rest =>
    if c == '}' then true
    else if isLineEnd c then startsPlain rest
    else if isSpace c then again rest
    else false

/-- Whether a statement can end right here in plain ECMAScript. -/
def endsPlain (operator : Bool) : Nat → List Char → Bool
  | 0, _ => false
  | _ + 1, [] => true
  | fuel + 1, text@(c :: rest) =>
    if c == '/' then
      match pass false false text.length text with
      | .slash => false
      | .sameLine next => settles (endsPlain operator fuel) next
      | .beyond next =>
        if !operator && next.head? != some ',' && next.head? != some '=' then true
        else settles (endsPlain operator fuel) next
    else if c == '}' then true
    else if isLineEnd c then startsPlain rest
    else if isSpace c then endsPlain operator fuel rest
    else false

/-- Whether a statement can end right here in the typed dialects. A brace followed by a colon closes
a pattern and ends no statement, unless an operator could stand here. -/
def endsTyped (operator signature : Bool) : List Char → Bool
  | [] => true
  | c :: rest =>
    if c == '}' then
      if (rest.dropWhile isSpace).head? == some ':' then operator else true
    else if c == '\n' then startsTyped operator signature rest
    else if isSpace c then endsTyped operator signature rest
    else false

/-- Whether a statement can end right here. `operator` says that a binary operator could follow,
`signature` that a function body could. -/
def ends (dialect : Dialect) (operator signature : Bool) (text : List Char) : Bool :=
  if dialect.hasTypes then endsTyped operator signature text
  else endsPlain operator (text.length + 1) text

end Terminator

namespace Cursor

/-- The place where a statement ends without a semicolon: here, or after comments that do not settle
the question themselves. -/
def endUpTo (ends : List Char → Bool) : Nat → Cursor → Option Cursor
  | 0, _ => none
  | count + 1, cursor =>
    if ends cursor.rest then some cursor
    else
      let here := cursor.skipBlanks
      match commentLength? here.rest with
      | some length => endUpTo ends count (here.pass .comment length)
      | none => none

/-- The place where a statement ends without a semicolon. -/
def statementEnd? (cursor : Cursor) (dialect : Dialect) (operator : Bool)
    (signature : Bool := false) : Option Cursor :=
  endUpTo (Terminator.ends dialect operator signature) (cursor.rest.length + 1) cursor

end Cursor

end Syntax
end StoryMigration
