import StoryMigration.Source.Edit
import StoryMigration.Syntax.Module

/-!
# Residual chain roots

Lines that declare a variable and begin a call of the registration function. They are dropped from a
text unless they are the content of a literal, of text between tags or of a comment. Such a line is
recognised by its beginning alone.
-/

namespace StoryMigration
namespace Residual

open Syntax

/-- Blanks within a line. -/
def isGap (b : UInt8) : Bool := b == 0x20 || b == 0x09

/-- Characters of an ASCII variable name. -/
def isNameByte (b : UInt8) : Bool :=
  (0x30 ≤ b && b ≤ 0x39) || (0x41 ≤ b && b ≤ 0x5a) || (0x61 ≤ b && b ≤ 0x7a) || b == 0x5f
    || b == 0x24

/-- What is left of some bytes behind a given beginning. -/
def behind? : List UInt8 → List UInt8 → Option (List UInt8)
  | [], rest => some rest
  | _ :: _, [] => none
  | a :: front, b :: rest => if a = b then behind? front rest else none

/-- What is left of some bytes behind one or more bytes with a property. -/
def behindSome? (test : UInt8 → Bool) (bytes : List UInt8) : Option (List UInt8) :=
  match bytes with
  | b :: rest => if test b then some (rest.dropWhile test) else none
  | [] => none

/-- What is left of some bytes behind a declaring keyword. -/
def behindKeyword? (bytes : List UInt8) : Option (List UInt8) :=
  behind? (Utf8.ofString "const") bytes <|> behind? (Utf8.ofString "let") bytes
    <|> behind? (Utf8.ofString "var") bytes

/-- Whether some bytes start with a call of a function, behind any number of blanks. -/
def startsCall (call : List UInt8) : List UInt8 → Option (List UInt8)
  | [] => behind? call []
  | b :: rest =>
    match behind? call (b :: rest) with
    | some more => some more
    | none => if isGap b then startsCall call rest else none

/-- What is left of a line behind the beginning of a residual root: a keyword, a name, an equals sign
and the function with an opening parenthesis. -/
def behindRoot? (name line : List UInt8) : Option (List UInt8) := do
  let rest ← behindKeyword? (line.dropWhile isGap)
  let rest ← behindSome? isGap rest
  let rest ← behindSome? isNameByte rest
  let rest ← behind? [0x3d] (rest.dropWhile isGap)
  startsCall (name ++ [0x28]) rest

/-- A line that declares a residual root, by its offsets. -/
structure Match where
  start : Nat
  /-- Offset of the keyword. -/
  keyword : Nat
  stop : Nat
  deriving DecidableEq, Repr

/-- Residual roots in the text from an offset on, which is the start of a line. -/
def matchesFrom (name : List UInt8) : Nat → Nat → List UInt8 → List Match
  | 0, _, _ => []
  | fuel + 1, offset, bytes =>
    let lineLength (text : List UInt8) : Nat := (text.takeWhile (· != 0x0a)).length
    match behindRoot? name bytes with
    | some rest =>
      let used := bytes.length - rest.length + lineLength rest
      let stop := min (used + 1) bytes.length
      ⟨offset, offset + (bytes.takeWhile isGap).length, offset + stop⟩
        :: (if used < bytes.length then matchesFrom name fuel (offset + stop) (bytes.drop stop)
          else [])
    | none =>
      let used := lineLength bytes
      if used < bytes.length then
        matchesFrom name fuel (offset + used + 1) (bytes.drop (used + 1))
      else []

/-- Residual roots of a text. -/
def roots (name bytes : List UInt8) : List Match := matchesFrom name (bytes.length + 1) 0 bytes

/-- Nodes whose text is data and no code. -/
def isLiteral : Kind → Bool
  | .string | .templateString | .comment | .jsxText => true
  | _ => false

/-- Spans of literals in a text that does not parse: comments, strings and templates, recognised from
the left. -/
def lexicalSpans : Nat → Nat → List Char → List Span
  | 0, _, _ => []
  | _, _, [] => []
  | fuel + 1, offset, text@(c :: rest) =>
    let take (length : Nat) : List Span :=
      let stop := offset + byteLength (text.take length)
      ⟨offset, stop⟩ :: lexicalSpans fuel stop (text.drop length)
    match commentLength? text with
    | some length => take length
    | none =>
      if c == '\'' || c == '"' then
        match (Reading.quoted c).run (Cursor.ofText text) with
        | some (_, cursor) => take (text.length - cursor.rest.length)
        | none => lexicalSpans fuel (offset + c.utf8Size) rest
      else if c == '`' then take (1 + (rest.takeWhile (· != '`')).length + 1)
      else lexicalSpans fuel (offset + c.utf8Size) rest

/-- Spans of the literals of a text. -/
def literalSpans (dialect : Dialect) (source : String) : List Span :=
  match Module.parse? dialect source with
  | some m => (m.tree.preorder.filter (isLiteral ·.kind)).map Node.span
  | none => lexicalSpans source.toList.length 0 source.toList

/-- Whether a residual root is code: its keyword stands in no literal. -/
def isCode (literals : List Span) (root : Match) : Bool :=
  !(literals.any fun span => span.start ≤ root.keyword && root.keyword < span.stop)

/-- The text without its residual roots. -/
def strip (dialect : Dialect) (name source : String) : Except EditError String :=
  let bytes := Utf8.ofString source
  match roots (Utf8.ofString name) bytes with
  | [] => .ok source
  | found =>
    let edits := (found.filter (isCode (literalSpans dialect source))).map fun root =>
      Edit.removal root.start root.stop
    if edits.isEmpty then .ok source else Edit.apply bytes edits

end Residual
end StoryMigration
