import StoryMigration.Syntax.Rule.Element
import StoryMigration.Syntax.Rule.Function

/-!
# Expressions

Operands with their prefixes and suffixes, and the operators between them. An arrow function is tried
wherever parameters could start, and a destructuring assignment wherever a literal is followed by `=`.
-/

namespace StoryMigration
namespace Syntax

open Reading

/-- How tightly a binary operator binds; greater binds tighter. -/
def bindingStrength : String → Option Nat
  | "**" => some 11
  | "*" => some 10
  | "/" => some 10
  | "%" => some 10
  | "+" => some 9
  | "-" => some 9
  | "<<" => some 8
  | ">>" => some 8
  | ">>>" => some 8
  | "<" => some 7
  | "<=" => some 7
  | ">" => some 7
  | ">=" => some 7
  | "instanceof" => some 7
  | "in" => some 7
  | "==" => some 6
  | "!=" => some 6
  | "===" => some 6
  | "!==" => some 6
  | "&" => some 5
  | "^" => some 4
  | "|" => some 3
  | "&&" => some 2
  | "||" => some 1
  | "??" => some 0
  | _ => none

/-- Operators that assign and compute at once. -/
def augmentedMarks : List String :=
  ["+=", "-=", "*=", "/=", "%=", "^=", "&=", "|=", ">>=", ">>>=", "<<=", "**=", "&&=", "||=", "??="]

/-- An operator that waits for its right operand. -/
structure Pending where
  left : Node
  operator : Node
  strength : Nat

/-- Combines an operand with the waiting operators that bind it at least as tightly as the operator
that follows it; with `**`, an equal one waits. -/
def settle (strength : Nat) : List Pending → Node → List Pending × Node
  | [], right => ([], right)
  | pending :: rest, right =>
    if strength < pending.strength || (strength == pending.strength && strength != 11) then
      settle strength rest
        (.mk .binary none ⟨pending.left.start, right.stop⟩ [pending.left, pending.operator, right])
    else (pending :: rest, right)

/-- Combines an operand with all waiting operators. -/
def settleAll : List Pending → Node → Node
  | [], right => right
  | pending :: rest, right =>
    settleAll rest
      (.mk .binary none ⟨pending.left.start, right.stop⟩ [pending.left, pending.operator, right])

namespace Kind

/-- What an assignment can change. -/
def isAssignable : Kind → Bool
  | identifier | undefinedWord | memberExpression | subscriptExpression | objectPattern | arrayPattern
  | parenthesized | nonNull => true
  | _ => false

/-- Expressions a template string cannot be applied to. -/
def isLoose : Kind → Bool
  | update | unary | await | jsxElement | jsxSelfClosing | asExpression | satisfiesExpression
  | typeAssertion | instantiation => true
  | _ => false

end Kind

/-- Whether a block's first statement is a labelled one, so that the block may be an object. -/
def startsWithLabel (block : Node) : Bool :=
  ((block.children.drop 1).head?.map Node.kind) == some .labeledStatement

namespace Grammar

variable (g : Grammar)

/-- The body of an arrow function. Braces hold statements, unless they can be read as an object whose
first member looks like a labelled statement. -/
def arrowBody (place : Place) : Reading Node := do
  let start ← get
  match ← maybe (g.block true) with
  | some body =>
    if startsWithLabel body then
      let afterBlock ← get
      set start
      if ← ahead g.object then g.read (.expression place)
      else
        set afterBlock
        pure body
    else pure body
  | none => g.read (.expression place)

/-- The parameters of an arrow function, up to its arrow. -/
def arrowHead : Reading (List Node) :=
  (do
    let name ← g.name
    let arrow ← sign "=>"
    pure [name, arrow])
  <|>
  (do
    let signature ← g.callSignature .typeInside
    let arrow ← sign "=>"
    pure (signature ++ [arrow]))

/-- Whether an arrow function's head annotates its result. -/
def ascribesResult (head : List Node) : Bool :=
  head.any (·.kind == .typeAscription)

/-- An arrow function. Between `?` and `:`, an annotated result needs another colon behind the
function. -/
def arrowFunction (place : Place) : Reading Node := do
  let async ← maybe do
    let async ← keyword "async"
    g.goesOn place
    require (← ahead g.arrowHead)
    pure async
  let head ← g.arrowHead
  let body ← g.arrowBody place
  require (!(place.betweenMarks && ascribesResult head) || (← ahead (sign ":")))
  build .arrowFunction (async.toList ++ head ++ [body])

/-- An expression in parentheses. -/
def parenthesized : Reading Node := do
  let opening ← sign "("
  let value ← g.commaExpression .inside
  let type ← g.typedOption (g.typeAscription .typeInside)
  let closing ← sign ")"
  build .parenthesized (opening :: value :: type ++ [closing])

/-- A literal, or the pattern that looks like it when `=` follows. -/
def literalOrPattern (literal pattern : Reading Node) : Reading Node :=
  (do
    let node ← literal
    require !(← ahead (sign "="))
    pure node)
  <|>
  (do
    let node ← pattern
    require (← ahead (sign "="))
    pure node)

/-- `new.target` or `import.meta`. -/
def metaProperty : Reading Node := do
  let word ← keyword "new" <|> keyword "import"
  let dot ← sign "."
  let property ← keyword "target" <|> keyword "meta"
  build .metaProperty [word, dot, property]

/-- An expression that starts with a word. -/
def wordExpression (place : Place) (word : String) : Reading Node :=
  match word with
  | "function" => g.functionExpression
  | "class" => g.classExpression
  | "this" => anyWord .thisWord
  | "super" => anyWord .superWord
  | "true" => anyWord .trueWord
  | "false" => anyWord .falseWord
  | "null" => anyWord .nullWord
  | "undefined" => anyWord .undefinedWord
  | "new" => metaProperty
  | "import" => metaProperty <|> (do
      let word ← anyWord .importWord
      require (← ahead (sign "(" <|> sign "."))
      pure word)
  | "async" =>
    g.arrowFunction place
    <|>
    (do
      require !(← ahead do
        discard (keyword "async")
        require (← g.stopsHere place))
      g.functionExpression)
    <|> anyWord .identifier
  | _ => g.arrowFunction place <|> g.name

/-- An operand without prefixes and suffixes. -/
def atom (place : Place) : Reading Node := do
  match ← nextWord with
  | some word => g.wordExpression place word
  | none =>
    match (← upcoming).head? with
    | some c =>
      if c == '\'' || c == '"' then stringLiteral
      else if c == '`' then g.template
      else if c == '(' then g.arrowFunction place <|> g.parenthesized
      else if c == '[' then literalOrPattern g.array g.arrayPattern
      else if c == '\x7b' then literalOrPattern g.object g.objectPattern
      else if c == '/' then regex
      else if c == '@' then g.classExpression
      else if c == '<' then
        (do
          require g.typed
          g.arrowFunction place)
        <|>
        (do
          require g.dialect.hasElements
          g.read .element)
        <|>
        (do
          require (g.typed && !g.dialect.hasElements)
          let types ← g.typeArguments
          let value ← g.read (.operand place)
          build .typeAssertion [types, value])
      else number
    | none => reject

/-- `.` and a property. -/
def memberSuffix (receiver : Node) : Reading Node := do
  let dot ← sign "." <|> sign "?."
  let property ← privateName <|> anyWord .propertyName
  build .memberExpression [receiver.withRole .receiver, dot, property.withRole .property]

/-- An index in brackets. -/
def indexSuffix (receiver : Node) : Reading Node := do
  let chain ← maybe (sign "?.")
  let opening ← sign "["
  let index ← g.commaExpression .inside
  let closing ← sign "]"
  build .subscriptExpression
    ([receiver.withRole .receiver] ++ chain.toList ++ [opening, index, closing])

/-- A template string applied to a function. -/
def templateSuffix (callee : Node) : Reading Node := do
  require !callee.kind.isLoose
  let template ← g.template
  build .callExpression [callee.withRole .callee, template.withRole .arguments]

/-- Arguments of a call. -/
def callSuffix (callee : Node) : Reading Node := do
  let chain ← maybe (sign "?.")
  let types ← g.typedOption g.typeArguments
  let arguments ← g.arguments
  build .callExpression
    ([callee.withRole .callee] ++ chain.toList ++ types ++ [arguments.withRole .arguments])

/-- Whether a text could start an operand, so that `>` before it is an operator. -/
def startsOperand (text : List Char) : Bool :=
  match text with
  | c :: _ =>
    "'\"`[!~@#".toList.contains c || c.isDigit
      || (match Lexeme.wordLength? text with
        | some length =>
          !(["as", "satisfies", "in", "instanceof", "of", "implements"].contains
            (String.ofList (text.take length)))
        | none => false)
  | [] => false

/-- Type arguments behind an expression that is not called. -/
def instantiationSuffix (place : Place) (value : Node) : Reading Node := do
  let types ← g.typeArguments
  require ((← g.stopsHere place) || !startsOperand (← upcoming))
  build .instantiation [value, types]

/-- `++` or `--` behind an operand. -/
def updateSuffix (value : Node) : Reading Node := do
  let operator ← sign "++" <|> sign "--"
  build .update [value, operator]

/-- `!` behind an operand. -/
def nonNullSuffix (value : Node) : Reading Node := do
  let operator ← sign "!"
  build .nonNull [value, operator]

/-- One suffix of an operand. -/
def suffix (place : Place) (value : Node) : Reading Node := do
  g.goesOn place
  memberSuffix value <|> g.indexSuffix value <|> g.templateSuffix value <|> g.callSuffix value
    <|> updateSuffix value
    <|> g.whenTyped (nonNullSuffix value <|> g.instantiationSuffix place value)

/-- What `new` applies to: an operand whose suffixes are no calls. -/
def constructor_ (place : Place) : Reading Node := do
  let base ← g.atom place
  grow (fun value => do
    g.goesOn place
    memberSuffix value <|> g.indexSuffix value <|> g.templateSuffix value
      <|> g.whenTyped (nonNullSuffix value)) base

/-- `new` and what it applies to, perhaps with arguments. -/
def newExpression : Nat → Place → Reading Node
  | 0, _ => reject
  | fuel + 1, place => do
    let word ← keyword "new"
    let callee ←
      (do
        require (← ahead (do
          discard (keyword "new")
          require !(← ahead (sign "."))))
        newExpression fuel place)
      <|> g.constructor_ place
    let types ← g.typedOption g.typeArguments
    let arguments ← maybe do
      g.goesOn place
      g.arguments
    build .newExpression
      ([word, callee] ++ types ++ (arguments.map (·.withRole .arguments)).toList)

/-- A prefix operator and its operand. -/
def unary (place : Place) : Reading Node := do
  let operator ← sign "!" <|> sign "~" <|> sign "-" <|> sign "+"
    <|> keywordOf ["typeof", "void", "delete"]
  let value ← g.read (.operand place)
  build .unary [operator, value]

/-- `++` or `--` before an operand. -/
def updatePrefix (place : Place) : Reading Node := do
  let operator ← sign "++" <|> sign "--"
  let value ← g.read (.operand place)
  build .update [operator, value]

/-- `await` and an operand. -/
def awaitExpression (place : Place) : Reading Node := do
  let word ← keyword "await"
  let value ← g.read (.operand place)
  build .await [word, value]

/-- `yield`, perhaps with a value or a sequence of values. -/
def yieldExpression (place : Place) : Reading Node := do
  let word ← keyword "yield"
  let value ← maybe do
    g.goesOn place
    let star ← maybe (sign "*")
    let value ← g.read (.expression place)
    pure (star.toList ++ [value])
  build .yield (word :: value.getD [])

/-- A private name, as `in` takes it. -/
def privateOperand : Reading Node := do
  let name ← privateName
  require (← ahead (keyword "in"))
  pure name

/-- The operand's assignment, if one follows. -/
def assigned (place : Place) (target : Node) : Reading Node :=
  if !target.kind.isAssignable then pure target
  else
    (do
      let operator ← sign "="
      let value ← g.read (.expression place)
      build .assignment [target.withRole .left, operator, value])
    <|>
    (do
      require (target.kind != .objectPattern && target.kind != .arrayPattern)
      let operator ← signOf augmentedMarks
      let value ← g.read (.expression place)
      build .augmentedAssignment [target.withRole .left, operator, value])
    <|> pure target

/-- An operand with its prefixes and suffixes, or the assignment it is the target of. -/
def operandRule (place : Place) : Reading Node := do
  gap true
  let base ←
    match (← get).rest.head? with
    | some c =>
      if "!~+-".toList.contains c then g.unary place <|> g.updatePrefix place
      else
        match ← nextWord with
        | some "typeof" => g.unary place
        | some "void" => g.unary place
        | some "delete" => g.unary place
        | some "await" => g.awaitExpression place
        | some "yield" => g.yieldExpression place
        | some "new" =>
          let text := (← get).rest
          metaProperty <|> g.newExpression text.length place <|> g.whenTyped (anyWord .identifier)
        | _ => privateOperand <|> g.atom place
    | none => reject
  let full ← if base.kind == .unary || base.kind == .await || base.kind == .yield then pure base
    else grow (g.suffix place) base
  g.assigned place full

/-- The operator between two operands, with its strength. -/
def binaryOperator (place : Place) : Reading (Node × Nat) := do
  g.goesOn place
  gap
  let text ←
    match ← nextWord with
    | some word => pure word
    | none => do pure (String.ofList (Lexeme.markOf (← get).rest))
  require (place.allowsIn || text != "in")
  match bindingStrength text with
  | some strength => pure (← take .token text.length, strength)
  | none => reject

/-- `as` or `satisfies` and a type. -/
def typeOperator (place : Place) : Reading (Node × List Node) := do
  g.goesOn place
  let word ← keyword "as" <|> keyword "satisfies"
  let type ← keyword "const" <|> g.read (.type { place with operator := true } true)
  pure (word, [word, type])

/-- One more operator behind the operands read so far. -/
def binaryStep (place : Place) (state : List Pending × Node) : Reading (List Pending × Node) :=
  (do
    let (operator, strength) ← g.binaryOperator place
    let (pending, left) := settle strength state.1 state.2
    let right ← g.read (.operand place)
    pure (⟨left, operator, strength⟩ :: pending, right))
  <|>
  g.whenTyped (do
    let (pending, left) := settle 7 state.1 state.2
    let (_, parts) ← g.typeOperator place
    let node ← build .asExpression (left :: parts)
    let full ← grow (g.suffix place) node
    pure (pending, full))

/-- Operands with binary operators between them. -/
def binaryExpression (place : Place) : Reading Node := do
  let first ← g.read (.operand place)
  let (pending, last) ← grow (g.binaryStep place) ([], first)
  pure (settleAll pending last)

/-- The question mark of a conditional expression. In the typed dialects one before a colon, a
parenthesis or a comma marks something optional. -/
def ternaryMark : Reading Node := do
  let question ← sign "?"
  if g.typed then
    match ((← get).rest.dropWhile isSpace).head? with
    | some c => require !(c == ':' || c == ')' || c == ',')
    | none => pure ()
  pure question

/-- An expression without commas outside brackets. -/
def expressionRule (place : Place) : Reading Node := do
  let condition ← g.binaryExpression place
  let choice ← maybe do
    let question ← g.ternaryMark
    let yes ← g.read (.expression { betweenMarks := true })
    let colon ← sign ":"
    let no ← g.read (.expression place)
    pure [question, yes, colon, no]
  match choice with
  | some parts => build .ternary (condition :: parts)
  | none => pure condition

end Grammar

end Syntax
end StoryMigration
