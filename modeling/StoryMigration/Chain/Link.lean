import StoryMigration.Syntax.StringValue

/-!
# Chains of calls

A chain starts at a call of the registration function with a string title, its root, and continues
through method calls, its links. A fragment is a chain together with the top-level statements that hold
it: the one with the root, and those that go on from the variable the chain was bound to.
-/

namespace StoryMigration
namespace Chain

open Syntax

/-- One method call of a chain. -/
structure Link where
  /-- The method's name. -/
  method : String
  /-- The whole call, with everything it is called on. -/
  call : Node
  /-- Its arguments, comments left out. -/
  arguments : List Node
  /-- The method's name in the source. -/
  property : Node
  /-- Comments between the links that belong to this one. -/
  comments : List Node

namespace Link

/-- The link adds a story. -/
def isAdd (link : Link) : Bool := link.method == "add"

/-- The link adds a decorator to all stories. -/
def isDecorator (link : Link) : Bool := link.method == "addDecorator"

/-- The link adds parameters to all stories. -/
def isParameters (link : Link) : Bool := link.method == "addParameters"

/-- Whether a node is a string literal. -/
def isString (node : Node) : Bool := node.kind == .string

/-- A link of a known method with the arguments the method takes: a story needs a literal name and
something to render, the others take one argument. Spread arguments are not understood. -/
def isWellFormed (link : Link) : Bool :=
  (link.isAdd || link.isDecorator || link.isParameters)
    && !(link.arguments.any (·.kind == .spreadElement))
    && (if link.isAdd then
        decide (2 ≤ link.arguments.length) && (link.arguments.head?.map isString).getD false
      else link.arguments.length == 1)

end Link

/-- The top-level statements that hold one chain. -/
structure Fragment where
  /-- The call that starts the chain. -/
  root : Node
  /-- The value of the root's first argument. -/
  title : Text
  /-- The chain's links from the root outwards, over all statements. -/
  links : List Link
  /-- The first statement, which holds the root. -/
  first : Node
  /-- Statements that go on from the variable, in source order. -/
  later : List Node
  /-- The variable the chain is bound to. -/
  binding : Option String

namespace Fragment

/-- All statements of the fragment, in source order. -/
def statements (fragment : Fragment) : List Node := fragment.first :: fragment.later

/-- The last statement, where the replacement is written. -/
def anchor (fragment : Fragment) : Node := fragment.later.getLast?.getD fragment.first

/-- Links that add stories. -/
def adds (fragment : Fragment) : List Link := fragment.links.filter (·.isAdd)

/-- Links that add decorators. -/
def decorators (fragment : Fragment) : List Link := fragment.links.filter (·.isDecorator)

/-- Links that add parameters. -/
def parameters (fragment : Fragment) : List Link := fragment.links.filter (·.isParameters)

/-- The fragment with a further statement and its links. -/
def extend (fragment : Fragment) (statement : Node) (links : List Link) : Fragment :=
  { fragment with links := fragment.links ++ links, later := fragment.later ++ [statement] }

end Fragment

end Chain
end StoryMigration
