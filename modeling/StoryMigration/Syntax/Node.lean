/-!
# Concrete syntax trees

A tree holds every token of a module, comments included, as nodes with byte spans. Leaves are words,
literals and punctuation; a node's role says which part of its parent it plays. Main statement:
`Node.preorder` lists a node before its children and the children from left to right.
-/

namespace StoryMigration
namespace Syntax

/-- What a node stands for. The last group holds the tokens that carry no name of their own. -/
inductive Kind where
  -- statements and declarations
  | program | hashBang | emptyStatement | expressionStatement | statementBlock
  | lexicalDeclaration | variableDeclaration | usingDeclaration | variableDeclarator
  | functionDeclaration | generatorFunctionDeclaration | functionSignature
  | classDeclaration | abstractClassDeclaration | enumDeclaration | interfaceDeclaration
  | typeAliasDeclaration | ambientDeclaration | namespaceDeclaration | importAlias
  | importStatement | importClause | namespaceImport | namedImports | importSpecifier
  | importAttribute | importRequire
  | exportStatement | namespaceExport | exportClause | exportSpecifier
  | ifStatement | elseClause | switchStatement | switchBody | switchCase | switchDefault
  | forStatement | forInStatement | whileStatement | doStatement | tryStatement | catchClause
  | finallyClause | withStatement | breakStatement | continueStatement | returnStatement
  | throwStatement | debuggerStatement | labeledStatement | statementLabel
  -- expressions
  | identifier | undefinedWord | thisWord | superWord | importWord | trueWord | falseWord | nullWord
  | number | string | stringFragment | escapeSequence | characterReference
  | templateString | templateSubstitution | regex
  | object | pair | shorthandProperty | methodDefinition | spreadElement | array
  | propertyName | privateName | computedName
  | functionExpression | generatorFunction | arrowFunction | formalParameters
  | requiredParameter | optionalParameter
  | classExpression | classHeritage | classBody | fieldDefinition | staticBlock | methodSignature
  | indexSignature | decorator
  | callExpression | newExpression | memberExpression | subscriptExpression | arguments
  | optionalChain | metaProperty | parenthesized | sequence | assignment | augmentedAssignment
  | ternary | binary | unary | update | await | yield | nonNull | asExpression
  | satisfiesExpression | typeAssertion | instantiation
  -- binding patterns
  | objectPattern | arrayPattern | pairPattern | shorthandPattern | objectAssignmentPattern
  | assignmentPattern | restPattern
  -- elements
  | jsxElement | jsxSelfClosing | jsxOpening | jsxClosing | jsxAttribute | jsxExpression | jsxText
  | jsxNamespaceName
  -- types
  | typeIdentifier | predefinedType | typeNode | typeArguments | typeParameters | typeParameter
  | typeAscription | objectType
  -- tokens
  | comment | htmlComment | defaultToken | token
  deriving DecidableEq, Repr, Inhabited

namespace Kind

/-- Punctuation and keywords are tokens without a name; every other node is named. -/
def isNamed : Kind → Bool
  | defaultToken => false
  | token => false
  | _ => true

/-- `let`, `const` and `var` declarations. -/
def isVariableDeclaration : Kind → Bool
  | lexicalDeclaration => true
  | variableDeclaration => true
  | _ => false

end Kind

/-- The part a node plays in its parent. -/
inductive Role where
  | name | rename | source | declaration | callee | arguments | receiver | property | key | value
  | left
  deriving DecidableEq, Repr

/-- The bytes from `start` up to, but not including, `stop`. -/
structure Span where
  start : Nat
  stop : Nat
  deriving DecidableEq, Repr, Inhabited

/-- A node of a syntax tree. -/
inductive Node where
  | mk (kind : Kind) (role : Option Role) (span : Span) (children : List Node)
  deriving Inhabited

namespace Node

/-- What the node stands for. -/
def kind : Node → Kind
  | mk kind _ _ _ => kind

/-- The part the node plays in its parent, if it has a named one. -/
def role : Node → Option Role
  | mk _ role _ _ => role

/-- The bytes the node covers. -/
def span : Node → Span
  | mk _ _ span _ => span

/-- Offset of the node's first byte. -/
def start (node : Node) : Nat := node.span.start

/-- Offset after the node's last byte. -/
def stop (node : Node) : Nat := node.span.stop

/-- The parts of the node in source order. -/
def children : Node → List Node
  | mk _ _ _ children => children

@[simp] theorem kind_mk (kind : Kind) (role : Option Role) (span : Span) (children : List Node) :
    (mk kind role span children).kind = kind := rfl

@[simp] theorem role_mk (kind : Kind) (role : Option Role) (span : Span) (children : List Node) :
    (mk kind role span children).role = role := rfl

@[simp] theorem span_mk (kind : Kind) (role : Option Role) (span : Span) (children : List Node) :
    (mk kind role span children).span = span := rfl

@[simp] theorem children_mk
    (kind : Kind) (role : Option Role) (span : Span) (children : List Node) :
    (mk kind role span children).children = children := rfl

/-- A node without parts. -/
def leaf (kind : Kind) (span : Span) : Node := mk kind none span []

/-- The same node in another part of a parent. -/
def withRole (node : Node) (role : Role) : Node :=
  mk node.kind (some role) node.span node.children

/-- The same node read as another kind. -/
def withKind (node : Node) (kind : Kind) : Node :=
  mk kind node.role node.span node.children

/-- Children that are neither punctuation nor keywords. -/
def namedChildren (node : Node) : List Node :=
  node.children.filter (·.kind.isNamed)

/-- Named children that are not comments. -/
def parts (node : Node) : List Node :=
  node.namedChildren.filter (·.kind ≠ .comment)

/-- The first child that plays a part. -/
def child? (node : Node) (role : Role) : Option Node :=
  node.children.find? (·.role = some role)

mutual

/-- The node and everything below it: a node before its children, children from left to right. -/
def preorder : Node → List Node
  | mk kind role span children => mk kind role span children :: preorderAll children

/-- The preorder of several nodes, one after another. -/
def preorderAll : List Node → List Node
  | [] => []
  | node :: rest => preorder node ++ preorderAll rest

end

theorem preorderAll_eq_flatMap (nodes : List Node) :
    preorderAll nodes = nodes.flatMap preorder := by
  induction nodes with
  | nil => simp [preorderAll]
  | cons node rest ih => simp [preorderAll, ih]

theorem preorder_eq (node : Node) :
    node.preorder = node :: node.children.flatMap preorder := by
  cases node with
  | mk kind role span children => simp [preorder, preorderAll_eq_flatMap]

/-- The first node of a traversal is the node it starts from. -/
@[simp] theorem head?_preorder (node : Node) : node.preorder.head? = some node := by
  rw [preorder_eq, List.head?_cons]

/-- Number of nodes of a tree. -/
def size (node : Node) : Nat := node.preorder.length

/-- A traversal with the nodes still to visit on a stack: the top is yielded and its children take
its place. Each step yields one node, so the sizes on the stack add up to one less. -/
def visitFrom : Nat → List Node → List Node
  | 0, _ => []
  | _ + 1, [] => []
  | fuel + 1, node :: stack => node :: visitFrom fuel (node.children ++ stack)

/-- Stack traversal of a subtree. -/
def visit (node : Node) : List Node := visitFrom node.size [node]

end Node

end Syntax
end StoryMigration
