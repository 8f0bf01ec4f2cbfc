import StoryMigration.Chain.Exports
import StoryMigration.Chain.Link

/-!
# Finding chains

The chains of a module, the import of the function that starts them, and the module's exports. Nothing
is changed here. A fragment is supported if every link is well formed and the variable it is bound to
is used by the fragment's own statements and nowhere else.
-/

namespace StoryMigration
namespace Chain

open Syntax

/-- The function that starts chains: the name it is exported under, and how the modules begin that
export it. -/
structure Registration where
  functionName : String := "storiesOf"
  packageStart : String := "@storybook/"
  deriving DecidableEq, Repr, Inhabited

/-- What is found in a module. -/
structure Located where
  /-- The local name of the registration function. -/
  localName : String
  /-- The import specifier of the function, if it is imported. -/
  specifier : Option Node
  /-- All calls that start a chain, anywhere in the module. -/
  roots : List Node
  /-- The supported fragments, in source order. -/
  fragments : List Fragment
  /-- The module's exports. -/
  exports : Exports

/-- Roots that no supported fragment starts from. -/
def Located.unsupported (located : Located) : List Node :=
  located.roots.filter fun root =>
    !(located.fragments.any fun fragment => fragment.root.start == root.start)

/-- What an import specifier is called in the module it comes from. -/
def importedName (m : Module) (name : Node) : Except EscapeError Text :=
  if name.kind == .string then m.stringValue name else .ok (.ofString (m.text name))

/-- The specifiers of an import statement that import the registration function. -/
def specifiersIn (m : Module) (registration : Registration) (statement : Node) :
    Except EscapeError (List Node) := do
  match statement.child? .source with
  | none => pure []
  | some source =>
    let value ← m.stringValue source
    if (Text.ofString registration.packageStart).isPrefixOf value then
      let specifiers := statement.preorder.filter (·.kind == .importSpecifier)
      specifiers.filterM fun specifier =>
        match specifier.child? .name with
        | some name => do
          pure (decide ((← importedName m name) = .ofString registration.functionName))
        | none => pure false
    else pure []

/-- All specifiers that import the registration function. -/
def specifiers (m : Module) (registration : Registration) : Except EscapeError (List Node) := do
  let imports := m.statements.filter (·.kind == .importStatement)
  pure (← imports.mapM (specifiersIn m registration)).flatten

/-- The local name of the registration function: the new name its first import gives it, if it does. -/
def localNameOf (m : Module) (registration : Registration) (specifier : Option Node) : String :=
  match specifier.bind (·.child? .rename) with
  | some newName => m.text newName
  | none => registration.functionName

/-- Whether a node is a call that starts a chain. -/
def isRoot (m : Module) (localName : String) (node : Node) : Bool :=
  node.kind == .callExpression
    && (match node.child? .callee with
      | some callee => callee.kind == .identifier && m.text callee == localName
      | none => false)
    && (node.callArguments.head?.map Link.isString).getD false

mutual

/-- The base of a chain of calls, which is a root or a name, and the links from there outwards. -/
def unwind (m : Module) (localName : String) : Node → Option (Node × List Link)
  | .mk kind role span children =>
    let node := Node.mk kind role span children
    if isRoot m localName node || kind == .identifier then some (node, [])
    else if kind == .callExpression then
      match unwindCallee m localName children with
      | some (base, links, property) =>
        some (base, links ++ [⟨m.text property, node, node.callArguments, property, []⟩])
      | none => none
    else none

/-- The chain that a call's callee continues: its base, its links and the called property. -/
def unwindCallee (m : Module) (localName : String) :
    List Node → Option (Node × List Link × Node)
  | [] => none
  | .mk kind role span children :: rest =>
    if role = some .callee then
      if kind == .memberExpression then
        match unwindReceiver m localName children, (Node.mk kind role span children).child? .property with
        | some (base, links), some property => some (base, links, property)
        | _, _ => none
      else none
    else unwindCallee m localName rest

/-- The chain of the part that a member is taken of. -/
def unwindReceiver (m : Module) (localName : String) : List Node → Option (Node × List Link)
  | [] => none
  | .mk kind role span children :: rest =>
    if role = some .receiver then unwind m localName (.mk kind role span children)
    else unwindReceiver m localName rest

end

/-- The expression of a statement that may hold a chain, and the variable it is bound to. A
declaration counts only if it declares one thing. -/
def statementExpression (m : Module) (statement : Node) : Option (Node × Option String) :=
  if statement.kind == .expressionStatement then
    statement.parts.head?.map fun expression => (expression, none)
  else if statement.kind.isVariableDeclaration then
    match statement.namedChildren.filter (·.kind == .variableDeclarator) with
    | [declarator] =>
      let binding := (declarator.child? .name).bind fun name =>
        if name.kind == .identifier then some (m.text name) else none
      (declarator.child? .value).map fun expression => (expression, binding)
    | _ => none
  else none

/-- The chain a statement holds: its base, its links and the variable it is bound to. -/
def statementChain (m : Module) (localName : String) (statement : Node) :
    Option (Node × List Link × Option String) :=
  match statementExpression m statement with
  | some (expression, binding) =>
    (unwind m localName expression).map fun chain => (chain.1, chain.2, binding)
  | none => none

/-- Fragments found so far, the latest last, and the index of the fragment every variable holds. -/
structure Progress where
  fragments : List Fragment
  bound : List (String × Nat)

/-- Takes one more statement into account. A statement that goes on from a variable belongs to the
fragment last bound to it; one that starts a chain is a fragment of its own. -/
def Progress.step (m : Module) (localName : String) (progress : Progress) (statement : Node) :
    Except EscapeError Progress := do
  match statementChain m localName statement with
  | none => pure progress
  | some (base, links, binding) =>
    if base.kind == .identifier then
      match progress.bound.find? (·.1 == m.text base) with
      | some (_, index) =>
        if statement.kind == .expressionStatement then
          pure { progress with
            fragments := progress.fragments.modify index (·.extend statement links) }
        else pure progress
      | none => pure progress
    else
      match base.callArguments with
      | argument :: _ =>
        let title ← m.stringValue argument
        let fragment : Fragment := ⟨base, title, links, statement, [], binding⟩
        pure
          { fragments := progress.fragments ++ [fragment]
            bound :=
              match binding with
              | some name => (name, progress.fragments.length) :: progress.bound
              | none => progress.bound }
      | [] => pure progress

/-- Spans whose comments stay where they are: the arguments of all links, and the root's. -/
def argumentSpans (fragment : Fragment) : List Span :=
  (fragment.links.flatMap fun link => link.arguments.map Node.span)
    ++ ((fragment.root.child? .arguments).map Node.span).toList

/-- Comments in a fragment's statements that lie in no argument. -/
def looseComments (fragment : Fragment) : List Node :=
  let spans := argumentSpans fragment
  (fragment.statements.flatMap fun statement =>
      statement.preorder.filter (·.kind == .comment)).filter fun comment =>
    !(spans.any fun span => span.start ≤ comment.start && comment.start < span.stop)

/-- The index of the link a comment belongs to: the first whose method is named behind it, or the
last one. -/
def ownerOf (links : List Link) (comment : Node) : Nat :=
  (links.findIdx? fun link => comment.start < link.property.start).getD (links.length - 1)

/-- The fragment with every loose comment attached to the link it belongs to. -/
def attachComments (fragment : Fragment) : Fragment :=
  let comments := looseComments fragment
  { fragment with
    links := fragment.links.mapIdx fun index link =>
      { link with
        comments := link.comments
          ++ comments.filter fun comment => ownerOf fragment.links comment == index } }

/-- How often a name occurs as an identifier or a shorthand property. -/
def uses (m : Module) (name : String) : Nat :=
  (m.tree.preorder.filter fun node =>
    (node.kind == .identifier || node.kind == .shorthandProperty) && m.text node == name).length

/-- Whether a fragment can be converted. -/
def isSupported (m : Module) (fragment : Fragment) : Bool :=
  fragment.links.all (·.isWellFormed)
    && (match fragment.binding with
      | none => true
      | some name => uses m name == fragment.statements.length)

/-- All fragments of a module, supported or not. -/
def allFragments (m : Module) (localName : String) : Except EscapeError (List Fragment) := do
  let progress ← m.statements.foldlM (Progress.step m localName) ⟨[], []⟩
  pure (progress.fragments.map attachComments)

/-- Finds the chains of a module. -/
def locate (m : Module) (registration : Registration) : Except EscapeError Located := do
  let specifier := (← specifiers m registration).head?
  let localName := localNameOf m registration specifier
  let roots := m.tree.preorder.filter (isRoot m localName)
  let fragments ←
    if roots.isEmpty then pure []
    else (·.filter (isSupported m)) <$> allFragments m localName
  let exports ← Exports.ofModule m
  pure ⟨localName, specifier, roots, fragments, exports⟩

end Chain
end StoryMigration
