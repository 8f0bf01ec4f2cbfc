import StoryMigration.Syntax.Rule.Parameter

/-!
# Elements

JSX elements: names, attributes and the text between tags.
-/

namespace StoryMigration
namespace Syntax

open Reading

/-- Length of a hyphenated name. -/
def hyphenatedLength? (text : List Char) : Option Nat :=
  let first (c : Char) : Bool := c.isAlpha || c == '_' || c == '$'
  let later (c : Char) : Bool := first c || c.isDigit
  match text with
  | c :: rest =>
    if first c then
      let front := Lexeme.run later rest
      match rest.drop front with
      | '-' :: more => some (front + 2 + Lexeme.run (fun d => later d || d == '-') more)
      | _ => none
    else none
  | [] => none

/-- Length of a character reference: a decimal or hexadecimal number, or a name. -/
def referenceLength? (text : List Char) : Option Nat :=
  let ends (length : Nat) : Option Nat :=
    if (text.drop length).head? == some ';' then some (length + 1) else none
  match text with
  | '&' :: '#' :: x :: rest =>
    if x == 'x' || x == 'X' then
      let digits := Lexeme.run isHexDigit rest
      if 1 ≤ digits && digits ≤ 6 then ends (digits + 3) else none
    else
      let digits := Lexeme.run Char.isDigit (x :: rest)
      if 1 ≤ digits && digits ≤ 5 then ends (digits + 2) else none
  | '&' :: rest =>
    let letters := Lexeme.run Char.isAlpha rest
    if 1 ≤ letters && letters ≤ 30 then ends (letters + 1) else none
  | _ => none

/-- Length of an attribute string's literal text. An ampersand is literal unless a reference could
start with it. -/
def attributeRun (quote : Char) : List Char → Nat
  | '&' :: d :: rest => if d == '#' || d.isAlpha then 0 else attributeRun quote rest + 2
  | c :: rest => if c == quote || c == '&' then 0 else attributeRun quote rest + 1
  | [] => 0

/-- Whether text between tags counts: it holds something else than blanks behind a line feed. -/
def countsAsText : Bool → List Char → Bool
  | _, [] => false
  | atLine, c :: rest =>
    if c == '\n' then countsAsText true rest
    else if atLine && isSpace c then countsAsText true rest
    else true

namespace Grammar

variable (g : Grammar)

/-- A hyphenated or plain name. -/
def elementWord (kind : Kind) : Reading Node := do
  gap
  match hyphenatedLength? (← get).rest with
  | some length => take kind length
  | none => anyWord kind

/-- Two names joined by a colon. -/
def namespaceName : Reading Node := do
  let front ← elementWord .identifier
  let colon ← sign ":"
  let name ← elementWord .identifier
  build .jsxNamespaceName [front, colon, name]

/-- The name of an element. -/
def elementName : Reading Node :=
  namespaceName
  <|>
  (do
    let first ← elementWord .identifier
    grow (fun receiver => do
      let dot ← sign "."
      let property ← anyWord .propertyName
      build .memberExpression [receiver.withRole .receiver, dot, property.withRole .property]) first)

/-- An expression, a spread or nothing in braces. -/
def elementExpression : Reading Node := do
  let opening ← sign "\x7b"
  let value ← maybe (g.spread <|> g.commaExpression .inside)
  let closing ← sign "\x7d"
  build .jsxExpression (opening :: value.toList ++ [closing])

/-- A character reference directly at the cursor. -/
def reference : Reading Node := do
  match referenceLength? (← get).rest with
  | some length => take .characterReference length
  | none => reject

/-- The string of an attribute. -/
def attributeString (quote : Char) : Reading Node := do
  let opening ← mark quote.toString
  let inner ← many <|
    (do
      match attributeRun quote (← get).rest with
      | 0 => reject
      | length => take .stringFragment length)
    <|> reference
  let closing ← immediately quote.toString
  build .string (opening :: inner ++ [closing])

/-- An attribute with its value, or attributes spread from an expression. -/
def elementAttribute : Reading Node :=
  g.elementExpression
  <|>
  (do
    let name ← namespaceName <|> elementWord .propertyName
    let value ← maybe do
      let equals ← mark "="
      let value ← attributeString '"' <|> attributeString '\'' <|> g.elementExpression
        <|> g.read .element
      pure [equals, value]
    build .jsxAttribute (name :: value.getD []))

/-- Text between tags. -/
def elementText : Reading Node := do
  let length := Lexeme.run (fun c => !"<>\x7b\x7d&".toList.contains c) (← get).rest
  require (countsAsText false ((← get).rest.take length))
  take .jsxText length

/-- What stands between the tags of an element. -/
def elementChild : Reading Node :=
  elementText
  <|>
  (do
    gap
    reference <|> g.elementExpression <|> g.read .element)

/-- An element: a tag that closes itself, or two tags with text, elements and expressions between
them. The names of the two tags are not compared. -/
def element : Reading Node := do
  let opening ← mark "<"
  let head ← maybe do
    let name ← elementName
    let types ← g.typedOption g.typeArguments
    let attributes ← many g.elementAttribute
    pure (name.withRole .name :: types ++ attributes)
  match ← maybe (mark "/>") with
  | some closing =>
    require head.isSome
    build .jsxSelfClosing (opening :: head.getD [] ++ [closing])
  | none =>
    let closing ← mark ">"
    let openingTag ← build .jsxOpening (opening :: head.getD [] ++ [closing])
    let inner ← many g.elementChild
    let slash ← mark "</"
    let name ← maybe elementName
    let last ← mark ">"
    let closingTag ← build .jsxClosing (slash :: name.toList ++ [last])
    build .jsxElement (openingTag :: inner ++ [closingTag])

end Grammar

end Syntax
end StoryMigration
