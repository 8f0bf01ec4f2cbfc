import StoryMigration.Syntax.Rule.Parameter

/-!
# Types

The type syntax of the typed dialects. Only the names in it matter to the rest of the library, so most
forms share one kind of node.
-/

namespace StoryMigration
namespace Syntax

open Reading

namespace Grammar

variable (g : Grammar)

/-- Types with a name of their own. -/
def predefinedNames : List String :=
  ["any", "number", "boolean", "string", "symbol", "void", "unknown", "never", "object"]

/-- Words that are types by themselves. -/
def literalWord : Reading Node :=
  keyword "true" .trueWord <|> keyword "false" .falseWord <|> keyword "null" .nullWord
    <|> keyword "undefined" .undefinedWord <|> keyword "this" .thisWord

/-- A type in any place inside brackets. -/
def innerType : Reading Node := g.read (.type .typeInside true)

/-- A template string with types in its substitutions. -/
def templateType : Reading Node := do
  let opening ← mark "`"
  let parts ← many <|
    (do
      match templateRun (← get).rest with
      | 0 => reject
      | length => take .stringFragment length)
    <|>
    (do
      let opening ← immediately "$\x7b"
      let type ← g.innerType
      let closing ← sign "\x7d"
      build .typeNode [opening, type, closing])
  let closing ← immediately "`"
  build .typeNode (opening :: parts ++ [closing])

/-- A name, or names joined by points, perhaps with type arguments. -/
def namedType : Reading Node := do
  let first ← anyWord .typeIdentifier
  let more ← many do
    let dot ← sign "."
    let name ← anyWord .propertyName
    pure (dot, name)
  let name ←
    match more.reverse with
    | [] => pure first
    | (dot, last) :: earlier =>
      let front := earlier.reverse.flatMap fun step => [step.1, step.2]
      build .typeNode
        (first.withKind .identifier :: front ++ [dot, last.withKind .typeIdentifier])
  match ← maybe g.typeArguments with
  | some arguments => build .typeNode [name, arguments]
  | none => pure name

/-- A value whose type is meant: a name, its members, or an imported module. -/
def queriedValue : Reading Node := do
  let base ←
    (do
      let callee ← keyword "import" .importWord
      let arguments ← g.arguments
      build .callExpression [callee.withRole .callee, arguments.withRole .arguments])
    <|> keyword "this" .thisWord <|> anyWord .identifier
  let value ← grow (fun receiver =>
    (do
      let dot ← sign "." <|> sign "?."
      let property ← privateName <|> anyWord .propertyName
      build .memberExpression [receiver.withRole .receiver, dot, property.withRole .property])
    <|>
    (do
      let opening ← sign "["
      let index ← stringLiteral <|> number
      let closing ← sign "]"
      build .subscriptExpression [receiver.withRole .receiver, opening, index, closing])) base
  match ← maybe g.typeArguments with
  | some arguments => build .instantiation [value, arguments]
  | none => pure value

/-- A type taken from an imported module. -/
def importedType : Reading Node := do
  let callee ← keyword "import" .importWord
  let arguments ← g.arguments
  let call ← build .callExpression [callee.withRole .callee, arguments.withRole .arguments]
  let member ← grow (fun receiver => do
    let dot ← sign "."
    let property ← anyWord .propertyName
    build .memberExpression [receiver.withRole .receiver, dot, property.withRole .property]) call
  match ← maybe g.typeArguments with
  | some arguments => build .instantiation [member, arguments]
  | none => pure member

/-- A member of a tuple type. -/
def tupleMember : Reading Node :=
  (do
    let dots ← maybe (sign "...")
    let name ← anyWord .identifier
    let mark? ← if dots.isSome then pure none else maybe (sign "?")
    let type ← g.typeAscription .typeInside
    build .requiredParameter (dots.toList ++ [name] ++ mark?.toList ++ [type]))
  <|>
  (do
    let dots ← sign "..."
    let type ← g.innerType
    build .typeNode [dots, type])
  <|>
  (do
    let type ← g.innerType
    match ← maybe (sign "?") with
    | some mark? => build .typeNode [type, mark?]
    | none => pure type)

/-- `[` name `:` type `]` or `[` name `in` type `]`, and the type of the members it stands for. -/
def indexSignature (place : Place) : Reading Node := do
  let modifier ← maybe do
    let plus ← maybe (mark "+" <|> mark "-")
    let readonly ← keyword "readonly"
    pure (plus.toList ++ [readonly])
  let opening ← sign "["
  let clause ←
    (do
      let name ← anyWord .identifier
      let colon ← sign ":"
      let type ← g.innerType
      pure [name.withRole .name, colon, type])
    <|>
    (do
      let name ← anyWord .typeIdentifier
      let word ← keyword "in"
      let type ← g.innerType
      let renamed ← maybe do
        let word ← keyword "as"
        let type ← g.innerType
        pure [word, type]
      pure ([name.withRole .name, word, type] ++ renamed.getD []))
  let closing ← sign "]"
  let mark? ← maybe do
    let plus ← maybe (mark "+" <|> mark "-")
    let question ← sign "?"
    pure (plus.toList ++ [question])
  let type ← g.typeAscription place
  build .indexSignature
    (modifier.getD [] ++ [opening] ++ clause ++ [closing] ++ mark?.getD [] ++ [type])

/-- A member of an object type. -/
def typeMember (place : Place) : Reading Node :=
  g.indexSignature place
  <|>
  (do
    let signature ← g.callSignature place
    build .methodSignature signature)
  <|>
  (do
    let abstract ← maybe (keyword "abstract")
    let new ← keyword "new"
    let signature ← g.callSignature place
    build .methodSignature (abstract.toList ++ [new] ++ signature))
  <|>
  (do
    let words ← g.modifiers
      ["public", "private", "protected", "static", "override", "readonly", "async", "get", "set"] true
    let star ← maybe (sign "*")
    let name ← g.memberName
    let mark? ← maybe (sign "?")
    match ← maybe (g.callSignature place) with
    | some signature =>
      build .methodSignature
        (words ++ star.toList ++ [name.withRole .name] ++ mark?.toList ++ signature)
    | none =>
      let type ← maybe (g.typeAscription place)
      build .fieldDefinition
        (words ++ star.toList ++ [name.withRole .name] ++ mark?.toList ++ type.toList))

/-- Members of an object type in braces, with commas, semicolons or line ends between them. -/
def objectType : Reading Node := do
  let separator : Reading (List Node) :=
    ((fun node => [node]) <$> sign ",") <|> semicolon g.dialect false
  let opening ← sign "\x7b"
  let first ← maybe (sign "," <|> sign ";")
  let members ← maybe do
    let member ← g.typeMember .typeTail
    let more ← many do
      let between ← separator
      let member ← g.typeMember .typeTail
      pure (between ++ [member])
    let last ← maybe separator
    pure (member :: more.flatten ++ last.getD [])
  let closing ← sign "\x7d"
  build .objectType (opening :: first.toList ++ members.getD [] ++ [closing])

/-- A function's type: its parameters, an arrow and its result. -/
def functionType (place : Place) : Reading Node := do
  let abstract ← maybe (keyword "abstract")
  let new ← maybe (keyword "new")
  require (abstract.isNone || new.isSome)
  let types ← maybe g.typeParameters
  let parameters ← g.formalParameters
  let arrow ← sign "=>"
  let result ← g.resultType place
  build .typeNode (abstract.toList ++ new.toList ++ types.toList ++ [parameters, arrow, result])

/-- A keyword and the type it applies to. -/
def wordType (word : String) (place : Place) : Reading Node := do
  let word ← keyword word
  let type ← g.read (.typeOperand place)
  build .typeNode [word, type]

/-- A type without infix or postfix operators. -/
def typeAtom (place : Place) : Reading Node := do
  match ← nextWord with
  | some word =>
    match word with
    | "readonly" => g.wordType word place
    | "keyof" => g.wordType word place
    | "unique" =>
      let unique ← keyword "unique"
      let symbol ← keyword "symbol"
      build .predefinedType [unique, symbol]
    | "infer" =>
      let infer ← keyword "infer"
      let name ← anyWord .typeIdentifier
      let bound ← maybe do
        let word ← keyword "extends"
        let type ← g.read (.type .typeInside false)
        require !(← ahead (sign "?"))
        pure [word, type]
      build .typeNode ([infer, name] ++ bound.getD [])
    | "typeof" =>
      let typeof ← keyword "typeof"
      let value ← g.queriedValue
      build .typeNode [typeof, value]
    | "import" => g.importedType
    | "new" => g.functionType place
    | "abstract" => g.functionType place
    | _ => (keywordOf predefinedNames).map (·.withKind .predefinedType) <|> literalWord
        <|> g.namedType
  | none =>
    g.functionType place
    <|>
    (do
      let opening ← sign "("
      let type ← g.innerType
      let closing ← sign ")"
      build .typeNode [opening, type, closing])
    <|> g.objectType
    <|>
    (do
      let opening ← sign "["
      let members ← commaList g.tupleMember
      let closing ← sign "]"
      build .typeNode (opening :: members ++ [closing]))
    <|> stringLiteral <|> number <|> g.templateType
    <|>
    (do
      let minus ← mark "-" <|> mark "+"
      let value ← number
      build .unary [minus, value])
    <|> sign "*"
    <|>
    (do
      let question ← sign "?"
      let type ← g.read (.typeOperand place)
      build .typeNode [question, type])

/-- `[]` for an array of the type, or `[key]` for one of its members. -/
def typeSuffix (place : Place) (type : Node) : Reading Node := do
  g.goesOn place
  let opening ← sign "["
  let key ← maybe g.innerType
  let closing ← sign "]"
  build .typeNode ([type, opening] ++ key.toList ++ [closing])

/-- A type without infix operators. -/
def typeOperand (place : Place) : Reading Node := do
  grow (g.typeSuffix place) (← g.typeAtom place)

/-- A type. -/
def typeRule (place : Place) (choice : Bool) : Reading Node := do
  let leading ← maybe (sign "|" <|> sign "&")
  let first ← g.read (.typeOperand place)
  let more ← many do
    let operator ← sign "|" <|> sign "&"
    let next ← g.read (.typeOperand place)
    pure [operator, next]
  let plain ←
    match leading.toList, more with
    | [], [] => pure first
    | front, rest => build .typeNode (front ++ [first] ++ rest.flatten)
  if !choice then pure plain
  else
    let rest ← maybe do
      g.goesOn place
      let word ← keyword "extends"
      let bound ← g.read (.type .typeInside false)
      let question ← sign "?"
      let yes ← g.innerType
      let colon ← sign ":"
      let no ← g.read (.type place true)
      pure [word, bound, question, yes, colon, no]
    match rest with
    | some parts => build .typeNode (plain :: parts)
    | none => pure plain

end Grammar

end Syntax
end StoryMigration
