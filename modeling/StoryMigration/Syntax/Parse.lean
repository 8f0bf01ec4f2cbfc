import StoryMigration.Syntax.Rule.Statement

/-!
# Parsing

A source text becomes a tree, or it does not parse. The grammar's rules read the tokens; comments are
then put where they stand: into the smallest node that has a token on both sides of them.
-/

namespace StoryMigration
namespace Syntax

namespace Node

/-- Puts nodes that overlap no other into a list of siblings, by position. -/
def mergeByStart : List Node → List Node → List Node
  | [], others => others
  | node :: nodes, others =>
    others.takeWhile (·.start < node.start)
      ++ node :: mergeByStart nodes (others.dropWhile (·.start < node.start))

/-- Whether a span lies in a node. -/
def covers (node other : Node) : Bool := node.start ≤ other.start && other.stop ≤ node.stop

mutual

/-- The tree with comments that lie inside it. -/
def withComments : List Node → Node → Node
  | comments, mk kind role span children =>
    let outside := comments.filter fun comment => !(children.any (·.covers comment))
    mk kind role span (mergeByStart (childrenWithComments comments children) outside)

/-- Children, each with the comments that lie inside it. -/
def childrenWithComments : List Node → List Node → List Node
  | _, [] => []
  | comments, node :: nodes =>
    withComments (comments.filter node.covers) node :: childrenWithComments comments nodes

end

end Node

open Reading in
/-- A whole source: its statements, perhaps behind a line for the shell. -/
def programRule (g : Grammar) : Reading Node := do
  gap true
  let text := (← get).rest
  let shell ←
    if (after? "#!".toList text).isSome then
      some <$> take .hashBang (Lexeme.run (· != '\n') text)
    else pure none
  let statements ← many (g.read .statement)
  finished
  build .program (shell.toList ++ statements)

/-- The tree of a source text, if it is one of the dialect. -/
def parse? (dialect : Dialect) (text : List Char) : Option Node :=
  if text.contains '\x00' then none
  else
    let depth := 8 * (text.length + 8)
    match (programRule ⟨dialect, Grammar.toDepth dialect depth⟩).run (Cursor.ofText text) with
    | some (.mk kind role _ children, cursor) =>
      let program := Node.mk kind role ⟨0, cursor.offset⟩ children
      some (program.withComments cursor.remarks.reverse)
    | none => none

end Syntax
end StoryMigration
