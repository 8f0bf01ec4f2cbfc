import StoryMigration.Syntax.Rule.Binding

/-!
# Parameters and signatures

Parameter lists of functions, with the annotations and modifiers of the typed dialects.
-/

namespace StoryMigration
namespace Syntax

open Reading

namespace Grammar

variable (g : Grammar)

/-- A colon and a type. -/
def typeAscription (place : Place) : Reading Node := do
  let colon ← sign ":"
  let type ← g.read (.type place true)
  build .typeAscription [colon, type]

/-- The claim that a parameter, or `this`, has a type. -/
def typePredicate (place : Place) : Reading Node := do
  let subject ← keyword "this" .thisWord <|> anyWord .identifier
  let is ← keyword "is"
  let type ← g.read (.type place true)
  build .typeNode [subject, is, type]

/-- The claim that a call returns only if a condition holds. -/
def assertion (place : Place) : Reading Node := do
  let asserts ← keyword "asserts"
  let subject ← g.typePredicate place <|> keyword "this" .thisWord <|> anyWord .identifier
  build .typeNode [asserts, subject]

/-- What a function returns: a type, a predicate or an assertion. -/
def resultType (place : Place) : Reading Node :=
  g.assertion place <|> g.typePredicate place <|> g.read (.type place true)

/-- A colon and what a function returns. -/
def resultAscription (place : Place) : Reading Node := do
  let colon ← sign ":"
  let type ← g.resultType place
  build .typeAscription [colon, type]

/-- A type parameter with its bound and default. -/
def typeParameter : Reading Node := do
  let const ← maybe do
    let const ← keyword "const"
    require (← ahead (anyWord .token))
    pure const
  let name ← anyWord .typeIdentifier
  let bound ← maybe do
    let word ← keyword "extends" <|> sign ":"
    let type ← g.read (.type .typeInside true)
    build .typeNode [word, type]
  let default ← maybe do
    let equals ← sign "="
    let type ← g.read (.type .typeInside true)
    build .typeNode [equals, type]
  build .typeParameter (const.toList ++ [name.withRole .name] ++ bound.toList ++ default.toList)

/-- Type parameters in angle brackets. -/
def typeParameters : Reading Node := do
  let opening ← sign "<"
  let parameters ← commaListOne g.typeParameter
  let closing ← mark ">"
  build .typeParameters (opening :: parameters ++ [closing])

/-- Type arguments in angle brackets. -/
def typeArguments : Reading Node := do
  let opening ← sign "<"
  let arguments ← commaListOne (g.read (.type .typeInside true))
  let closing ← mark ">"
  build .typeArguments (opening :: arguments ++ [closing])

/-- Argument list of a call; places may be left out. -/
def arguments : Reading Node := do
  let opening ← sign "("
  let items ← commaSlots g.item
  let closing ← sign ")"
  build .arguments (opening :: items ++ [closing])

/-- A name, or names joined by points, behind `@`. -/
def decoratorName : Reading Node := do
  let name ← anyWord .identifier
  grow (fun receiver => do
    let dot ← sign "."
    let property ← anyWord .propertyName
    build .memberExpression [receiver.withRole .receiver, dot, property.withRole .property]) name

/-- `@` and a name, a call or an expression in parentheses. -/
def decorator : Reading Node := do
  let at_ ← sign "@"
  let body ←
    (do
      let opening ← sign "("
      let value ← g.commaExpression .inside
      let closing ← sign ")"
      build .parenthesized [opening, value, closing])
    <|>
    (do
      let name ← decoratorName
      let call ← maybe do
        let types ← g.typedOption g.typeArguments
        let arguments ← g.arguments
        build .callExpression (name.withRole .callee :: types ++ [arguments.withRole .arguments])
      pure (call.getD name))
  build .decorator [at_, body]

/-- A parameter in a typed dialect. -/
def typedParameter : Reading Node := do
  let decorators ← many g.decorator
  let modifiers ← many do
    let word ← keywordOf ["public", "private", "protected", "override", "readonly"]
    require (← ahead (discard (g.restPattern) <|> discard (g.read .binding)
      <|> discard (keyword "this")))
    pure word
  let pattern ← g.restPattern <|> g.read .binding <|> keyword "this" .thisWord
  let mark? ← maybe (sign "?")
  let type ← maybe (g.typeAscription .typeInside)
  let value ← maybe (g.initializer .inside)
  let kind := if mark?.isSome then Kind.optionalParameter else Kind.requiredParameter
  build kind
    (decorators ++ modifiers ++ [pattern] ++ mark?.toList ++ type.toList ++ value.getD [])

/-- A parameter. -/
def parameter : Reading Node :=
  if g.typed then g.typedParameter else g.restPattern <|> g.bindingElement

/-- Parameters in parentheses. -/
def formalParameters : Reading Node := do
  let opening ← sign "("
  let parameters ← commaList g.parameter
  let closing ← sign ")"
  build .formalParameters (opening :: parameters ++ [closing])

/-- Type parameters, parameters and result of a function. -/
def callSignature (place : Place) : Reading (List Node) := do
  let types ← g.typedOption g.typeParameters
  let parameters ← g.formalParameters
  let result ← g.typedOption (g.resultAscription place)
  pure (types ++ [parameters] ++ result)

end Grammar

end Syntax
end StoryMigration
