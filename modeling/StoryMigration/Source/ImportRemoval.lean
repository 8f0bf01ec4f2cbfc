import StoryMigration.Source.LineSpan

/-!
# Removing an import

The edit that takes one specifier out of an import. The whole statement goes when nothing else is
imported; otherwise the specifier goes with the comma that separates it, and with its braces when they
would be empty.
-/

namespace StoryMigration
namespace ImportRemoval

open Syntax

/-- The import statement that holds a specifier. -/
def statementOf? (m : Module) (specifier : Node) : Option Node :=
  m.statements.find? fun statement =>
    statement.kind == .importStatement && statement.covers specifier

/-- Neighbours of the item at a position: the one before and the one behind. -/
def neighbours (nodes : List Node) (start : Nat) : Option Node × Option Node :=
  ((nodes.takeWhile (·.start < start)).getLast?,
    ((nodes.dropWhile (·.start < start)).drop 1).head?)

/-- The node below another one that has a node as its child. -/
def parentOf? (top node : Node) : Option Node :=
  top.preorder.find? fun parent =>
    parent.children.any fun child => child.kind == node.kind && child.span == node.span

/-- The edit that removes a specifier from an import statement. -/
def edit (m : Module) (statement specifier : Node) : Edit :=
  match parentOf? statement specifier with
  | none => LineSpan.removal m statement false
  | some braces =>
    let specifiers := braces.namedChildren.filter (·.kind == .importSpecifier)
    if 1 < specifiers.length then
      match neighbours specifiers specifier.start with
      | (_, some next) => .removal specifier.start next.start
      | (some previous, none) => .removal previous.stop specifier.stop
      | (none, none) => LineSpan.removal m statement false
    else
      match parentOf? statement braces with
      | none => LineSpan.removal m statement false
      | some clause =>
        match neighbours clause.parts braces.start with
        | (some previous, _) => .removal previous.stop braces.stop
        | (none, some next) => .removal braces.start next.start
        | (none, none) => LineSpan.removal m statement false

/-- How often a name occurs as an identifier or a shorthand property outside some nodes. -/
def references (m : Module) (name : String) (exclude : List Node) : Nat :=
  (m.tree.preorder.filter fun node =>
    (node.kind == .identifier || node.kind == .shorthandProperty) && m.text node == name
      && !(exclude.any (·.covers node))).length

end ImportRemoval
end StoryMigration
