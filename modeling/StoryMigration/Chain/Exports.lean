import StoryMigration.Syntax.StringValue

/-!
# What a module exports

The default export and the named exports of a module at run time, in source order. Type declarations
export nothing, and an export under the name `default` is the default export.
-/

namespace StoryMigration
namespace Chain

open Syntax

/-- A module's exports. -/
structure Exports where
  hasDefault : Bool
  named : List Text
  deriving Repr, Inhabited

namespace Exports

/-- No exports. -/
def none : Exports := ⟨false, []⟩

/-- Both lists of exports, one behind the other. -/
def append (a b : Exports) : Exports := ⟨a.hasDefault || b.hasDefault, a.named ++ b.named⟩

mutual

/-- The names that a pattern binds, in source order. -/
def patternNames : Node → List Node
  | .mk kind role span children =>
    match kind with
    | .identifier => [.mk kind role span children]
    | .shorthandPattern => [.mk kind role span children]
    | .pairPattern => firstOf .value children
    | .assignmentPattern => firstOf .left children
    | .objectAssignmentPattern => firstOf .left children
    | .objectPattern => allOf children
    | .arrayPattern => allOf children
    | .restPattern => allOf children
    | _ => []

/-- The names that the first part with a role binds. -/
def firstOf (role : Role) : List Node → List Node
  | [] => []
  | node :: rest => if node.role = some role then patternNames node else firstOf role rest

/-- The names that any of some parts binds. -/
def allOf : List Node → List Node
  | [] => []
  | node :: rest => patternNames node ++ allOf rest

end

/-- Declarations whose name is bound at run time. -/
def isNamedDeclaration : Kind → Bool
  | .functionDeclaration | .generatorFunctionDeclaration | .classDeclaration
  | .abstractClassDeclaration | .enumDeclaration => true
  | _ => false

/-- The names that a declaration binds at run time. -/
def declaredNames (declaration : Node) : List Node :=
  if declaration.kind.isVariableDeclaration then
    (declaration.namedChildren.filter (·.kind == .variableDeclarator)).flatMap fun declarator =>
      ((declarator.child? .name).map patternNames).getD []
  else if isNamedDeclaration declaration.kind then (declaration.child? .name).toList
  else []

/-- The name an export specifier exports under. -/
def exportedName (m : Module) (specifier : Node) : Except EscapeError Text :=
  match specifier.child? .rename <|> specifier.child? .name with
  | some exported =>
    if exported.kind == .string then m.stringValue exported else .ok (.ofString (m.text exported))
  | .none => .ok []

/-- An export under a name. -/
def under (name : Text) : Exports :=
  if name = .ofString "default" then ⟨true, []⟩ else ⟨false, [name]⟩

/-- The exports of an export statement. -/
def ofStatement (m : Module) (statement : Node) : Except EscapeError Exports :=
  if statement.children.any (·.kind == .defaultToken) then .ok ⟨true, []⟩
  else
    match statement.child? .declaration with
    | some declaration =>
      .ok ⟨false, (declaredNames declaration).map fun name => .ofString (m.text name)⟩
    | .none => do
      let clauses := statement.namedChildren.filter (·.kind == .exportClause)
      let specifiers := clauses.flatMap fun clause =>
        clause.namedChildren.filter (·.kind == .exportSpecifier)
      let names ← specifiers.mapM (exportedName m)
      pure ((names.map under).foldl append none)

/-- The exports of a module. -/
def ofModule (m : Module) : Except EscapeError Exports := do
  let statements := m.statements.filter (·.kind == .exportStatement)
  pure ((← statements.mapM (ofStatement m)).foldl append none)

end Exports

end Chain
end StoryMigration
