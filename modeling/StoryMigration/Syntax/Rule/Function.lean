import StoryMigration.Syntax.Rule.Type

/-!
# Blocks and functions

Statement blocks, function expressions, methods and the members of classes.
-/

namespace StoryMigration
namespace Syntax

open Reading

namespace Grammar

variable (g : Grammar)

/-- Statements in braces. Behind the closing brace a statement may end without a semicolon; with
`operator`, a binary operator could stand there instead. -/
def block (operator : Bool) : Reading Node := do
  let opening ← sign "\x7b"
  let statements ← many (g.read .statement)
  let closing ← sign "\x7d"
  softEnd g.dialect operator
  build .statementBlock (opening :: statements ++ [closing])

/-- A function whose name may be missing. -/
def functionExpression : Reading Node := do
  let async ← maybe (keyword "async")
  let word ← keyword "function"
  let star ← maybe (sign "*")
  let name ← maybe (nameIn g.dialect)
  let signature ← g.callSignature .typeInside
  let body ← g.block true
  build (if star.isSome then .generatorFunction else .functionExpression)
    (async.toList ++ [word] ++ star.toList ++ (name.map (·.withRole .name)).toList ++ signature
      ++ [body])

/-- A method with its body; `words` can stand before its name. -/
def method (words : List String) (closes : Bool) : Reading Node := do
  let decorators ← many g.decorator
  let words ← g.modifiers words closes
  let star ← maybe (sign "*")
  let name ← g.memberName
  let question ← g.typedOption (sign "?")
  let signature ← g.callSignature .typeInside
  let body ← g.block false
  build .methodDefinition
    (decorators ++ words ++ star.toList ++ [name.withRole .name] ++ question ++ signature ++ [body])

/-- A member name, a colon and a value. -/
def pair : Reading Node := do
  let key ← g.memberName
  let colon ← sign ":"
  let value ← g.inner
  build .pair [key.withRole .key, colon, value.withRole .value]

/-- A name that is both the member and its value. -/
def shorthand : Reading Node := g.memberWord .shorthandProperty

/-- Words that can stand before a method of an object. -/
def objectModifiers : List String :=
  if g.typed then
    ["public", "private", "protected", "static", "override", "readonly", "async", "get", "set"]
  else ["static", "async", "get", "set"]

/-- An object literal. -/
def object : Reading Node := do
  let opening ← sign "\x7b"
  let members ← commaSlots
    (g.spread <|> g.pair <|> g.method g.objectModifiers false <|> g.shorthand)
  let closing ← sign "\x7d"
  build .object (opening :: members ++ [closing])

/-- A block that runs when the class is set up. -/
def staticBlock : Reading Node := do
  let word ← keyword "static"
  let body ← g.block false
  build .staticBlock [word, body]

/-- A field of a class in plain ECMAScript. -/
def plainField : Reading Node := do
  let decorators ← many g.decorator
  let words ← g.modifiers ["static"] true
  let name ← g.memberName
  let value ← maybe (g.initializer .tail)
  let ending ← semicolon g.dialect value.isSome
  build .fieldDefinition (decorators ++ words ++ [name.withRole .name] ++ value.getD [] ++ ending)

/-- Words that can stand before a member of a class in a typed dialect. -/
def memberWords : List String :=
  ["declare", "public", "private", "protected", "static", "override", "readonly", "abstract",
    "accessor", "async", "get", "set"]

/-- A comma or the end of a member. -/
def memberEnd (operator signature : Bool) : Reading (List Node) :=
  ((fun node => [node]) <$> sign ",") <|> semicolon g.dialect operator signature

/-- A member of a class without a body, in a typed dialect: a signature or a field. -/
def typedMember : Reading Node :=
  (do
    let static ← maybe (keyword "static")
    let signature ← g.indexSignature .typeTail
    let ending ← g.memberEnd false false
    build .indexSignature (static.toList ++ [signature] ++ ending))
  <|>
  (do
    let decorators ← many g.decorator
    let words ← g.modifiers memberWords true
    let star ← maybe (sign "*")
    let name ← g.memberName
    let question ← maybe (sign "?")
    let signature ← g.callSignature .typeTail
    let ending ← g.memberEnd false true
    build .methodSignature
      (decorators ++ words ++ star.toList ++ [name.withRole .name] ++ question.toList ++ signature
        ++ ending))
  <|>
  (do
    let decorators ← many g.decorator
    let words ← g.modifiers memberWords true
    let name ← g.memberName
    let mark? ← maybe (sign "?" <|> sign "!")
    let type ← maybe (g.typeAscription .typeTail)
    let value ← maybe (g.initializer .tail)
    let ending ← g.memberEnd value.isSome false
    build .fieldDefinition
      (decorators ++ words ++ [name.withRole .name] ++ mark?.toList ++ type.toList ++ value.getD []
        ++ ending))

/-- A member of a class. -/
def classMember : Reading Node :=
  sign ";"
  <|> g.staticBlock
  <|>
  (if g.typed then g.method memberWords true <|> g.typedMember
    else g.method ["static", "async", "get", "set"] true <|> g.plainField)

/-- Members of a class in braces. -/
def classBody : Reading Node := do
  let opening ← sign "\x7b"
  let members ← many g.classMember
  let closing ← sign "\x7d"
  build .classBody (opening :: members ++ [closing])

/-- What a class extends and implements. -/
def classHeritage : Reading Node := do
  let base ← maybe do
    let word ← keyword "extends"
    let bases ←
      if g.typed then
        commaSeparated do
          let value ← g.inner
          let types ← maybe g.typeArguments
          build .classHeritage (value :: types.toList)
      else (fun node => [node]) <$> g.inner
    pure (word :: bases)
  let interfaces ←
    if g.typed then
      maybe do
        let word ← keyword "implements"
        let types ← commaSeparated g.innerType
        pure (word :: types)
    else pure none
  require (base.isSome || interfaces.isSome)
  build .classHeritage (base.getD [] ++ interfaces.getD [])

/-- A class from its keyword on. The name of a class in a typed dialect is a type's name. -/
def classFrom (kind : Kind) (needsName ends operator : Bool) (front : List Node) :
    Reading Node := do
  let word ← keyword "class"
  let name ← maybe <|
    if g.typed then wordExcept ["extends", "implements"] .typeIdentifier else nameIn g.dialect
  require (name.isSome || !needsName)
  let types ← g.typedOption g.typeParameters
  let heritage ← maybe g.classHeritage
  let body ← g.classBody
  if ends then softEnd g.dialect operator
  build kind
    (front ++ [word] ++ (name.map (·.withRole .name)).toList ++ types ++ heritage.toList ++ [body])

/-- A class as a value. -/
def classExpression : Reading Node := do
  let decorators ← many g.decorator
  g.classFrom .classExpression false false true decorators

end Grammar

end Syntax
end StoryMigration
