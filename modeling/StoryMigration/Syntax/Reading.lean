import StoryMigration.Syntax.Dialect
import StoryMigration.Syntax.Node

/-!
# Reading source text

A reading takes characters from the front of the source and may fail without a trace, so that another
reading can be tried from the same place. The cursor keeps the byte offset of what is left and the
comments passed so far. Tokens never take the blanks that follow them: the cursor's offset is the end
of the last token read.
-/

namespace StoryMigration
namespace Syntax

/-- A place in the source. -/
structure Cursor where
  /-- Characters not read yet. -/
  rest : List Char
  /-- Bytes read so far. -/
  offset : Nat
  /-- Comments passed so far, the latest first. -/
  remarks : List Node

/-- A computation that reads source text or fails. -/
abbrev Reading (α : Type) := StateT Cursor Option α

/-- Characters between tokens. -/
def isBlank (c : Char) : Bool :=
  c == ' ' || c == '\t' || c == '\n' || c == '\r' || c == '\x0b' || c == '\x0c'
    || c == '\u00a0' || c == '\u1680' || ('\u2000' ≤ c && c ≤ '\u200b') || c == '\u2028'
    || c == '\u2029' || c == '\u202f' || c == '\u205f' || c == '\u2060' || c == '\u3000'
    || c == '\ufeff'

/-- Characters after which a new line starts. -/
def isLineEnd (c : Char) : Bool :=
  c == '\n' || c == '\u2028' || c == '\u2029'

/-- Bytes of a run of characters. -/
def byteLength (text : List Char) : Nat :=
  text.foldl (fun total c => total + c.utf8Size) 0

/-- The characters after a given beginning, if the text starts with it. -/
def after? : List Char → List Char → Option (List Char)
  | [], rest => some rest
  | _ :: _, [] => none
  | c :: front, d :: rest => if c = d then after? front rest else none

namespace Cursor

/-- The cursor at the start of a text. -/
def ofText (text : List Char) : Cursor := ⟨text, 0, []⟩

/-- Moves over characters that have been recognised. -/
def advance (cursor : Cursor) (count : Nat) : Cursor :=
  { cursor with
    rest := cursor.rest.drop count
    offset := cursor.offset + byteLength (cursor.rest.take count) }

/-- Notes a comment that starts at the cursor and moves over it. -/
def pass (cursor : Cursor) (kind : Kind) (count : Nat) : Cursor :=
  let next := cursor.advance count
  { next with remarks := .leaf kind ⟨cursor.offset, next.offset⟩ :: next.remarks }

/-- Moves over blanks. -/
def skipBlanks (cursor : Cursor) : Cursor :=
  cursor.advance (cursor.rest.takeWhile isBlank).length

end Cursor

/-- Length of the line comment that starts the text, up to its line end. -/
def lineCommentLength? (text : List Char) : Option Nat :=
  match text with
  | '/' :: '/' :: body =>
    some (2 + (body.takeWhile fun c => !(isLineEnd c || c == '\r')).length)
  | _ => none

/-- Number of characters up to and including the first `*/`. -/
def blockEnd? : List Char → Option Nat
  | '*' :: '/' :: _ => some 2
  | _ :: rest => (blockEnd? rest).map (· + 1)
  | [] => none

/-- Length of the block comment that starts the text. -/
def blockCommentLength? (text : List Char) : Option Nat :=
  match text with
  | '/' :: '*' :: body => (blockEnd? body).map (· + 2)
  | _ => none

/-- Length of the comment that starts the text. -/
def commentLength? (text : List Char) : Option Nat :=
  lineCommentLength? text <|> blockCommentLength? text

/-- Length of the one-line comment in the manner of HTML that starts the text. -/
def htmlCommentLength? (text : List Char) : Option Nat :=
  match text with
  | '<' :: '!' :: '-' :: '-' :: body => some (4 + (body.takeWhile fun c => !isLineEnd c).length)
  | '-' :: '-' :: '>' :: body => some (3 + (body.takeWhile fun c => !isLineEnd c).length)
  | _ => none

namespace Cursor

/-- Moves over blanks and comments, at most `count` comments. `html` admits the comments in the
manner of HTML, which only stand where no operator can. -/
def skipUpTo (html : Bool) : Nat → Cursor → Cursor
  | 0, cursor => cursor.skipBlanks
  | count + 1, cursor =>
    let here := cursor.skipBlanks
    match commentLength? here.rest with
    | some length => skipUpTo html count (here.pass .comment length)
    | none =>
      match (if html then htmlCommentLength? here.rest else none) with
      | some length => skipUpTo html count (here.pass .htmlComment length)
      | none => here

/-- Moves over all blanks and comments. -/
def skip (cursor : Cursor) (html : Bool := false) : Cursor :=
  skipUpTo html cursor.rest.length cursor

end Cursor

namespace Reading

variable {α β : Type}

/-- Fails. -/
def reject : Reading α := fun _ => none

/-- Fails unless the condition holds. -/
def require (condition : Bool) : Reading Unit :=
  if condition then pure () else reject

/-- The reading's result, or nothing read. -/
def maybe (reading : Reading α) : Reading (Option α) :=
  (some <$> reading) <|> pure none

/-- Whether the reading would succeed here; nothing is read. -/
def ahead (reading : Reading α) : Reading Bool := fun cursor =>
  some ((reading cursor).isSome, cursor)

/-- Repeats a reading up to a number of times, until it fails. -/
def upTo : Nat → Reading α → Reading (List α)
  | 0, _ => pure []
  | count + 1, reading =>
    (do
      let first ← reading
      let rest ← upTo count reading
      pure (first :: rest))
    <|> pure []

/-- Repeats a reading until it fails. Each round reads something, so the rest bounds the rounds. -/
def many (reading : Reading α) : Reading (List α) := do
  upTo ((← get).rest.length + 1) reading

/-- Repeats a step on a value up to a number of times, until it fails. -/
def growUpTo (step : α → Reading α) : Nat → α → Reading α
  | 0, value => pure value
  | count + 1, value =>
    (do
      let next ← step value
      growUpTo step count next)
    <|> pure value

/-- Repeats a step on a value until it fails. Each round reads something. -/
def grow (step : α → Reading α) (value : α) : Reading α := do
  growUpTo step ((← get).rest.length + 1) value

/-- Moves over blanks and comments. -/
def gap (html : Bool := false) : Reading Unit := modify (·.skip html)

/-- A node from its parts; it ends where the last token read ends. -/
def build (kind : Kind) (children : List Node) : Reading Node := do
  let cursor ← get
  let start := (children.head?.map Node.start).getD cursor.offset
  pure (.mk kind none ⟨start, cursor.offset⟩ children)

/-- A leaf of the next `count` characters, which have been recognised. -/
def take (kind : Kind) (count : Nat) : Reading Node := do
  let cursor ← get
  let next := cursor.advance count
  set next
  pure (.leaf kind ⟨cursor.offset, next.offset⟩)

/-- The characters to read next, without blanks and comments before them. -/
def upcoming : Reading (List Char) := do
  pure ((← get).skip.rest)

/-- The given characters, directly at the cursor. -/
def immediately (text : String) (kind : Kind := .token) : Reading Node := do
  match after? text.toList (← get).rest with
  | some _ => take kind text.length
  | none => reject

/-- The given characters, whatever follows them. -/
def mark (text : String) (kind : Kind := .token) : Reading Node := do
  gap
  immediately text kind

/-- Succeeds at the end of the source. -/
def finished : Reading Unit := do
  gap true
  require (← get).rest.isEmpty

end Reading

end Syntax
end StoryMigration
