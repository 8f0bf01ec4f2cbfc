import StoryMigration.Syntax.Rule.Literal

/-!
# Binding patterns and parameters

What a declaration, a parameter or the left side of a destructuring assignment binds.
-/

namespace StoryMigration
namespace Syntax

open Reading

namespace Grammar

variable (g : Grammar)

/-- Words that start an expression of their own in the typed dialects, so that they name nothing
where an expression could stand. -/
def expressionWords : List String :=
  ["function", "class", "new", "typeof", "void", "delete", "await", "yield", "this", "super", "true",
    "false", "null", "undefined", "import"]

/-- Words that are no names where an expression could stand. -/
def notNames : List String :=
  if g.typed then expressionWords
  else "undefined" :: "await" :: "yield" :: reservedWords.filter (· != "export")

/-- A name where an expression could stand. -/
def name (kind : Kind := .identifier) : Reading Node := wordExcept g.notNames kind

/-- A name that is both a member and what it stands for. The word for the undefined value is read as
one there. -/
def memberWord (kind : Kind) : Reading Node := g.name kind <|> keyword "undefined" kind

/-- `=` and a value. -/
def initializer (place : Place) : Reading (List Node) := do
  let equals ← sign "="
  let value ← g.read (.expression place)
  pure [equals, value.withRole .value]

/-- A pattern, perhaps with a default value. -/
def bindingElement : Reading Node := do
  let left ← g.read .binding
  match ← maybe (sign "=") with
  | some equals =>
    let right ← g.inner
    build .assignmentPattern [left.withRole .left, equals, right]
  | none => pure left

/-- `...` and what it binds. -/
def restPattern : Reading Node := do
  let dots ← sign "..."
  let target ← g.read .binding
  build .restPattern [dots, target]

/-- A member name, a colon and what the member binds. -/
def pairPattern : Reading Node := do
  let key ← g.memberName
  let colon ← sign ":"
  let value ← g.bindingElement
  build .pairPattern [key.withRole .key, colon, value.withRole .value]

/-- A name that is both the member and what it binds, perhaps with a default value. -/
def shorthandPattern : Reading Node := do
  let left ← g.memberWord .shorthandPattern
  match ← maybe (sign "=") with
  | some equals =>
    let right ← g.inner
    build .objectAssignmentPattern [left.withRole .left, equals, right]
  | none => pure left

/-- A pattern for an object's members. -/
def objectPattern : Reading Node := do
  let opening ← sign "\x7b"
  let members ← commaSlots (g.restPattern <|> g.pairPattern <|> g.shorthandPattern)
  let closing ← sign "\x7d"
  build .objectPattern (opening :: members ++ [closing])

/-- A pattern for an array's elements. -/
def arrayPattern : Reading Node := do
  let opening ← sign "["
  let elements ← commaSlots (g.restPattern <|> g.bindingElement)
  let closing ← sign "]"
  build .arrayPattern (opening :: elements ++ [closing])

/-- One more `.name` or `[index]` behind an assignable place. -/
def placeSuffix (target : Node) : Reading Node :=
  (do
    let dot ← sign "."
    let property ← privateName <|> anyWord .propertyName
    build .memberExpression [target.withRole .receiver, dot, property.withRole .property])
  <|>
  (do
    let opening ← sign "["
    let index ← g.commaExpression .inside
    let closing ← sign "]"
    build .subscriptExpression [target.withRole .receiver, opening, index, closing])

/-- What is bound: a pattern, a name, or a place reached through one. The word for the undefined value
can be bound like a name. -/
def binding : Reading Node :=
  g.objectPattern <|> g.arrayPattern
    <|> (do
      let target ← g.name <|> keyword "undefined" .undefinedWord
      grow g.placeSuffix target)
    <|> (do
      let this ← keyword "this" .thisWord
      let target ← g.placeSuffix this
      grow g.placeSuffix target)

/-- What a `var`, `let`, `const` or `catch` binds. -/
def declared : Reading Node :=
  g.objectPattern <|> g.arrayPattern <|> nameIn g.dialect

end Grammar

end Syntax
end StoryMigration
