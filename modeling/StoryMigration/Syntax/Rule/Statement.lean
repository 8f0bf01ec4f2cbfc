import StoryMigration.Syntax.Rule.Expression

/-!
# Statements and declarations

Everything that can stand at the top level of a module or in a block.
-/

namespace StoryMigration
namespace Syntax

open Reading

namespace Grammar

variable (g : Grammar)

/-- An expression in parentheses, as statements use it. -/
def condition : Reading Node := g.parenthesized

/-- A declared name or pattern with its type and value. -/
def declarator (place : Place) : Reading Node := do
  let name ← g.declared
  let sure ← g.typedOption do
    let mark ← sign "!"
    require (← ahead (sign ":"))
    pure mark
  let type ← g.typedOption (g.typeAscription { place with operator := false })
  let value ← maybe (g.initializer place)
  build .variableDeclarator ([name.withRole .name] ++ sure ++ type ++ value.getD [])

/-- Whether the last of some declarators has a value, so that an operator could follow. -/
def endsInValue (declarators : List Node) : Bool :=
  (declarators.getLast?.bind (·.child? .value)).isSome

/-- Declarators from the keyword on, without what ends the declaration. -/
def declarators (place : Place) : Reading (Kind × List Node) :=
  (do
    let word ← keyword "var"
    let names ← commaSeparated (g.declarator place)
    pure (.variableDeclaration, word :: names))
  <|>
  (do
    let word ← keyword "const" <|> (do
      let word ← keyword "let"
      g.goesOn .tail
      require !(["in", "instanceof"].contains ((← nextWord).getD ""))
      pure word)
    let names ← commaSeparated (g.declarator place)
    pure (.lexicalDeclaration, word :: names))
  <|>
  (do
    require !g.typed
    let await ← maybe (keyword "await")
    let word ← keyword "using"
    require !((← get).statementEnd? g.dialect true).isSome
    let names ← commaSeparated (g.declarator place)
    pure (.usingDeclaration, await.toList ++ [word] ++ names))

/-- A declaration of variables. -/
def variableDeclaration : Reading Node := do
  let (kind, parts) ← g.declarators .tail
  let ending ← semicolon g.dialect (endsInValue parts)
  build kind (parts ++ ending)

/-- A function with a name, and in the typed dialects perhaps without a body. -/
def functionDeclaration (operator : Bool) : Reading Node := do
  let async ← maybe do
    let async ← keyword "async"
    g.goesOn .tail
    pure async
  let word ← keyword "function"
  let star ← maybe (sign "*")
  let name ← nameIn g.dialect
  let signature ← g.callSignature .typeTail
  let front :=
    async.toList ++ [word] ++ star.toList ++ [name.withRole .name] ++ signature
  if ← ahead (sign "\x7b") then
    let body ← g.block operator
    softEnd g.dialect operator
    build (if star.isSome then .generatorFunctionDeclaration else .functionDeclaration)
      (front ++ [body])
  else
    require g.typed
    let ending ← semicolon g.dialect false true
    build .functionSignature (front ++ ending)

/-- Members of an enumeration. -/
def enumDeclaration : Reading Node := do
  let const ← maybe (keyword "const")
  let word ← keyword "enum"
  let name ← anyWord .identifier
  let opening ← sign "\x7b"
  let members ← commaList do
    let member ← g.memberName
    match ← maybe (g.initializer .inside) with
    | some value => build .typeNode (member.withRole .name :: value)
    | none => pure member
  let closing ← sign "\x7d"
  build .enumDeclaration
    (const.toList ++ [word, name.withRole .name, opening] ++ members ++ [closing])

/-- A name that may be qualified by others. -/
def qualifiedName : Reading Node := do
  let first ← anyWord .identifier
  grow (fun receiver => do
    let dot ← sign "."
    let property ← anyWord .propertyName
    build .memberExpression [receiver.withRole .receiver, dot, property.withRole .property]) first

/-- Declarations of types, namespaces and enumerations. -/
def typedDeclaration : Reading Node := do
  match ← nextWord with
  | some "type" =>
    let word ← keyword "type"
    g.goesOn .tail
    let name ← anyWord .typeIdentifier
    let types ← maybe g.typeParameters
    let equals ← sign "="
    let type ← g.read (.type .typeTail true)
    let ending ← semicolon g.dialect false
    build .typeAliasDeclaration
      ([word, name.withRole .name] ++ types.toList ++ [equals, type] ++ ending)
  | some "interface" =>
    let word ← keyword "interface"
    let name ← anyWord .typeIdentifier
    let types ← maybe g.typeParameters
    let bases ← maybe do
      let word ← keyword "extends"
      let bases ← commaSeparated g.namedType
      pure (word :: bases)
    let body ← g.objectType
    build .interfaceDeclaration
      ([word, name.withRole .name] ++ types.toList ++ bases.getD [] ++ [body])
  | some "enum" => g.enumDeclaration
  | some "const" => g.enumDeclaration
  | some "abstract" =>
    let word ← keyword "abstract"
    g.classFrom .abstractClassDeclaration true false false [word]
  | some "declare" =>
    let word ← keyword "declare"
    g.goesOn .tail
    let body ←
      (do
        let word ← keyword "global"
        let body ← g.block false
        pure [word, body])
      <|> (fun node => [node]) <$> g.read .statement
    require (body.any fun node => node.kind != .expressionStatement)
    build .ambientDeclaration (word :: body)
  | some word =>
    require (word == "namespace" || word == "module")
    let word ← anyWord .token
    g.goesOn .tail
    let name ← stringLiteral <|> qualifiedName
    let body ← maybe (g.block false)
    build .namespaceDeclaration ([word, name.withRole .name] ++ body.toList)
  | none => reject

/-- A class with its decorators. -/
def classDeclaration (operator : Bool) : Reading Node := do
  let decorators ← many g.decorator
  (do
    let word ← keyword "abstract"
    require g.typed
    g.classFrom .abstractClassDeclaration true false false (decorators ++ [word]))
  <|> g.classFrom .classDeclaration true true operator decorators

/-- `import` name `=` and a qualified name or a required module. -/
def importAlias : Reading Node := do
  let word ← keyword "import"
  let type ← maybe do
    let type ← keyword "type"
    require (← ahead (anyWord .token))
    pure type
  let name ← anyWord .identifier
  let equals ← sign "="
  let source ←
    (do
      let word ← keyword "require"
      let opening ← sign "("
      let source ← stringLiteral
      let closing ← sign ")"
      pure [word, opening, source.withRole .source, closing])
    <|> (fun node => [node]) <$> qualifiedName
  let ending ← semicolon g.dialect false
  build .importAlias ([word] ++ type.toList ++ [name, equals] ++ source ++ ending)

/-- Declarations that can be exported. -/
def declaration (operator : Bool) : Reading Node :=
  g.whenTyped g.typedDeclaration <|> g.variableDeclaration <|> g.functionDeclaration operator
    <|> g.classDeclaration operator <|> g.whenTyped g.importAlias

/-- How a binding is called outside its module. -/
def outerName : Reading Node :=
  keyword "default" .defaultToken <|> nameIn g.dialect <|> stringLiteral

/-- A name with another name for it. -/
def aliased (kind : Kind) (outer inner : Reading Node) : Reading Node := do
  let type ← g.typedOption do
    let type ← keywordOf ["type", "typeof"]
    require (← ahead do
      match ← maybe (do
        discard outer
        discard (keyword "as")
        discard inner) with
      | some _ => pure ()
      | none =>
        discard outer
        discard (sign "," <|> sign "\x7d"))
    pure type
  let name ← outer
  let renamed ← maybe do
    let word ← keyword "as"
    let newName ← inner
    pure [word, newName.withRole .rename]
  build kind (type ++ [name.withRole .name] ++ renamed.getD [])

/-- A binding taken from another module. -/
def importSpecifier : Reading Node :=
  g.aliased .importSpecifier
    ((keyword "default" .identifier) <|> nameIn g.dialect <|> stringLiteral)
    (nameIn g.dialect)

/-- A binding offered to other modules. -/
def exportSpecifier : Reading Node :=
  g.aliased .exportSpecifier g.outerName g.outerName

/-- `from` and a module. -/
def fromClause : Reading (List Node) := do
  let word ← keyword "from"
  let source ← stringLiteral
  pure [word, source.withRole .source]

/-- Bindings in braces. -/
def namedImports : Reading Node := do
  let opening ← sign "\x7b"
  let specifiers ← commaList g.importSpecifier
  let closing ← sign "\x7d"
  build .namedImports (opening :: specifiers ++ [closing])

/-- A whole module under a name. -/
def namespaceImport : Reading Node := do
  let star ← sign "*"
  let word ← keyword "as"
  let name ← nameIn g.dialect
  build .namespaceImport [star, word, name]

/-- The bindings an import introduces. -/
def importClause : Reading Node :=
  (do
    let bindings ← g.namespaceImport <|> g.namedImports
    build .importClause [bindings])
  <|>
  (do
    let name ← nameIn g.dialect
    let more ← maybe do
      let comma ← sign ","
      let bindings ← g.namespaceImport <|> g.namedImports
      pure [comma, bindings]
    build .importClause (name :: more.getD []))

/-- Attributes of an import. -/
def importAttribute : Reading Node := do
  g.goesOn { closes := true, operator := false }
  let word ← keyword "with"
  let attributes ← g.object
  build .importAttribute [word, attributes]

/-- An import of bindings, or of a module for its effects. -/
def importStatement : Reading Node := do
  let word ← keyword "import"
  let whole : Reading (List Node) := do
    let clause ← g.importClause
    let source ← fromClause
    pure (clause :: source)
  let parts ←
    g.whenTyped (do
      let type ← keywordOf ["type", "typeof"]
      let parts ← whole
      pure (type :: parts))
    <|> whole
    <|> (do
      let source ← stringLiteral
      pure [source.withRole .source])
  let attributes ← maybe g.importAttribute
  let ending ← semicolon g.dialect false
  build .importStatement (word :: parts ++ attributes.toList ++ ending)

/-- Bindings in braces, offered to other modules. -/
def exportClause : Reading Node := do
  let opening ← sign "\x7b"
  let specifiers ← commaList g.exportSpecifier
  let closing ← sign "\x7d"
  build .exportClause (opening :: specifiers ++ [closing])

/-- What follows `export`, up to the end of the statement. -/
def exportTail : Reading (List Node) :=
  (do
    let word ← keyword "default" .defaultToken
    (do
      let declaration ← g.functionDeclaration true <|> g.classDeclaration true
        <|> g.whenTyped g.typedDeclaration
      pure [word, declaration.withRole .declaration])
    <|>
    (do
      let value ← g.read (.expression .tail)
      let ending ← semicolon g.dialect true
      pure ([word, value.withRole .value] ++ ending)))
  <|>
  (do
    let star ← sign "*"
    let name ← maybe do
      let word ← keyword "as"
      let name ← g.outerName
      pure [word, name]
    let bindings ←
      match name with
      | some parts => build .namespaceExport (star :: parts)
      | none => pure star
    let source ← fromClause
    let ending ← semicolon g.dialect false
    pure (bindings :: source ++ ending))
  <|>
  (do
    let type ← g.typedOption (keyword "type")
    let clause ← g.exportClause
    let source ← maybe fromClause
    let ending ← semicolon g.dialect false
    pure (type ++ [clause] ++ source.getD [] ++ ending))
  <|>
  g.whenTyped
    ((do
      let equals ← sign "="
      let value ← g.read (.expression .tail)
      let ending ← semicolon g.dialect true
      pure ([equals, value] ++ ending))
    <|>
    (do
      let as_ ← keyword "as"
      let word ← keyword "namespace"
      let name ← anyWord .identifier
      let ending ← semicolon g.dialect false
      pure ([as_, word, name] ++ ending)))
  <|>
  (do
    let declaration ← g.declaration false
    pure [declaration.withRole .declaration])

/-- An export. -/
def exportStatement : Reading Node := do
  let decorators ← many g.decorator
  let word ← keyword "export"
  let rest ← g.exportTail
  build .exportStatement (decorators ++ [word] ++ rest)

/-- A keyword that may name a label. -/
def jump (word : String) (kind : Kind) : Reading Node := do
  let word ← keyword word
  let label ← maybe do
    g.goesOn .typeTail
    nameIn g.dialect .statementLabel
  let ending ← semicolon g.dialect false
  build kind (word :: label.toList ++ ending)

/-- A statement whose head, in parentheses, is followed by its body. -/
def headed (word : String) (kind : Kind) : Reading Node := do
  let word ← keyword word
  let head ← g.condition
  let body ← g.read .statement
  build kind [word, head, body]

/-- A conditional statement. -/
def ifStatement : Reading Node := do
  let word ← keyword "if"
  let head ← g.condition
  let body ← g.read .statement
  let other ← maybe do
    let word ← keyword "else"
    let body ← g.read .statement
    build .elseClause [word, body]
  build .ifStatement ([word, head, body] ++ other.toList)

/-- The head of a loop over the members or elements of a value. -/
def memberHead : Reading (List Node) := do
  let await ← maybe (keyword "await")
  let opening ← sign "("
  let left ←
    (do
      let word ← keyword "var" <|> keyword "const" <|> keyword "let"
      let name ← g.declared
      let value ← maybe (g.initializer { allowsIn := false })
      pure ([word, name] ++ value.getD []))
    <|> (fun node => [node]) <$> (g.read .binding <|> g.parenthesized)
  let word ← keyword "of" <|> keyword "in"
  let right ← g.commaExpression .inside
  let closing ← sign ")"
  pure (await.toList ++ [opening] ++ left ++ [word, right, closing])

/-- The head of a loop with a counter: three parts, the last two of which may be missing. -/
def countHead : Reading (List Node) := do
  let opening ← sign "("
  let first ← sign ";" <|> g.variableDeclaration
    <|> (do
      let value ← g.commaExpression .inside
      let ending ← sign ";"
      build .expressionStatement [value, ending])
  let test ← maybe (g.commaExpression .inside)
  let ending ← sign ";"
  let step ← maybe (g.commaExpression .inside)
  let closing ← sign ")"
  pure ([opening, first] ++ test.toList ++ [ending] ++ step.toList ++ [closing])

/-- A `for` loop. -/
def forStatement : Reading Node := do
  let word ← keyword "for"
  let overMembers ← maybe g.memberHead
  let head ←
    match overMembers with
    | some head => pure head
    | none => g.countHead
  let body ← g.read .statement
  build (if overMembers.isSome then .forInStatement else .forStatement) ([word] ++ head ++ [body])

/-- A loop that tests behind its body. -/
def doStatement : Reading Node := do
  let word ← keyword "do"
  let body ← g.read .statement
  let while_ ← keyword "while"
  let head ← g.condition
  let ending ← maybe (semicolon g.dialect false)
  build .doStatement ([word, body, while_, head] ++ ending.getD [])

/-- A block with a handler and a finalizer. -/
def tryStatement : Reading Node := do
  let word ← keyword "try"
  let body ← g.block false
  let handler ← maybe do
    let word ← keyword "catch"
    let parameter ← maybe do
      let opening ← sign "("
      let name ← g.declared
      let type ← g.typedOption (g.typeAscription .typeInside)
      let closing ← sign ")"
      pure ([opening, name] ++ type ++ [closing])
    let body ← g.block false
    build .catchClause (word :: parameter.getD [] ++ [body])
  let finalizer ← maybe do
    let word ← keyword "finally"
    let body ← g.block false
    build .finallyClause [word, body]
  build .tryStatement ([word, body] ++ handler.toList ++ finalizer.toList)

/-- A choice between cases. -/
def switchStatement : Reading Node := do
  let word ← keyword "switch"
  let head ← g.condition
  let opening ← sign "\x7b"
  let cases ← many <|
    (do
      let word ← keyword "case"
      let value ← g.commaExpression .inside
      let colon ← sign ":"
      let body ← many (g.read .statement)
      build .switchCase ([word, value, colon] ++ body))
    <|>
    (do
      let word ← keyword "default"
      let colon ← sign ":"
      let body ← many (g.read .statement)
      build .switchDefault ([word, colon] ++ body))
  let closing ← sign "\x7d"
  let body ← build .switchBody (opening :: cases ++ [closing])
  build .switchStatement [word, head, body]

/-- `return`, perhaps with a value. -/
def returnStatement : Reading Node := do
  let word ← keyword "return"
  let value ← maybe do
    g.goesOn .typeTail
    g.commaExpression .tail
  let ending ← semicolon g.dialect value.isSome
  build .returnStatement (word :: value.toList ++ ending)

/-- `throw` and a value. -/
def throwStatement : Reading Node := do
  let word ← keyword "throw"
  let value ← g.commaExpression .tail
  let ending ← semicolon g.dialect true
  build .throwStatement ([word, value] ++ ending)

/-- A statement with a label. -/
def labeledStatement : Reading Node := do
  let label ← wordExcept
    (if g.typed then expressionWords else "await" :: "yield" :: reservedWords) .statementLabel
  let colon ← sign ":"
  let body ← g.read .statement
  build .labeledStatement [label, colon, body]

/-- An expression as a statement. -/
def expressionStatement : Reading Node := do
  let value ← g.commaExpression .tail
  let ending ← semicolon g.dialect true
  build .expressionStatement (value :: ending)

/-- Marks that continue an expression and start no statement. -/
def continuingMarks : List String :=
  [".", "?.", ",", "||", "&&", "??", "==", "===", "!=", "!==", "*", "**", "%", ">", ">=", "<=", "<<",
    ">>", ">>>", "|", "&", "^", "?", "="]

/-- A declaration at the start of a statement, unless what follows shows that it is the beginning of an
expression. -/
def declarationStatement (declaration : Reading Node) : Reading Node :=
  (do
    let node ← declaration
    require !(← ahead (signOf continuingMarks))
    pure node)
  <|> g.expressionStatement

/-- Braces at the start of a statement: a block, unless they can be read as an object whose first
member looks like a labelled statement, or as nothing but an object. -/
def braceStatement : Reading Node := do
  let start ← get
  match ← maybe (do
      let node ← g.block false
      require !(← ahead (signOf continuingMarks))
      pure node) with
  | some node =>
    if startsWithLabel node then
      let afterBlock ← get
      set start
      match ← maybe g.expressionStatement with
      | some object => pure object
      | none =>
        set afterBlock
        pure node
    else pure node
  | none => g.expressionStatement

/-- A statement that starts with a word. -/
def wordStatement (word : String) : Reading Node :=
  match word with
  | "import" => g.importStatement <|> g.whenTyped g.importAlias <|> g.expressionStatement
  | "export" =>
    (do
      require !(← ahead do
        discard (keyword "export")
        require (← g.stopsHere .tail))
      (do
        let word ← keyword "export"
        let import_ ← g.whenTyped g.importAlias
        build .exportStatement [word, import_])
      <|> g.exportStatement)
    <|> g.expressionStatement
  | "var" => g.variableDeclaration
  | "const" => g.variableDeclaration <|> g.whenTyped g.enumDeclaration
  | "let" => g.variableDeclaration <|> g.expressionStatement
  | "using" => g.variableDeclaration <|> g.expressionStatement
  | "await" => g.expressionStatement <|> g.variableDeclaration
  | "function" => g.declarationStatement (g.functionDeclaration true)
  | "class" => g.declarationStatement (g.classDeclaration true)
  | "async" =>
    (do
      require (← ahead do
        discard (keyword "async")
        discard (keyword "function"))
      g.declarationStatement (g.functionDeclaration true))
    <|> g.expressionStatement
  | "if" => g.ifStatement
  | "for" => g.forStatement
  | "while" => g.headed "while" .whileStatement
  | "with" => g.headed "with" .withStatement
  | "do" => g.doStatement
  | "switch" => g.switchStatement
  | "try" => g.tryStatement
  | "break" => g.jump "break" .breakStatement
  | "continue" => g.jump "continue" .continueStatement
  | "return" => g.returnStatement
  | "throw" => g.throwStatement
  | "debugger" => do
    let word ← keyword "debugger"
    let ending ← semicolon g.dialect false
    build .debuggerStatement (word :: ending)
  | _ =>
    (do
      require g.typed
      require (["type", "interface", "enum", "abstract", "declare", "namespace", "module"].contains
        word)
      g.typedDeclaration)
    <|> g.expressionStatement

/-- A statement. -/
def statementRule : Reading Node := do
  gap true
  match ← nextWord with
  | some word =>
    (do
      require (← ahead (do
        discard (anyWord .token)
        discard (sign ":")))
      g.labeledStatement)
    <|> g.wordStatement word
  | none =>
    match (← get).rest.head? with
    | some '\x7b' => g.braceStatement
    | some ';' => do
      let mark ← sign ";"
      build .emptyStatement [mark]
    | some '@' => g.exportStatement <|> g.declarationStatement (g.classDeclaration true)
    | some _ => g.expressionStatement
    | none => reject

/-- The rule a goal names. -/
def rule : Goal → Reading Node
  | .statement => g.statementRule
  | .expression place => g.expressionRule place
  | .operand place => g.operandRule place
  | .binding => g.binding
  | .type place choice => g.typeRule place choice
  | .typeOperand place => g.typeOperand place
  | .element => g.element

/-- Readings for all goals, for goals nested at most `depth` deep. -/
def toDepth (dialect : Dialect) : Nat → Goal → Reading Node
  | 0, _ => reject
  | depth + 1, goal => rule ⟨dialect, toDepth dialect depth⟩ goal

end Grammar

end Syntax
end StoryMigration
