import StoryMigration.Syntax.Parse
import StoryMigration.Text.Blank
import StoryMigration.Text.Utf8

/-!
# Source modules

A module that parses: the bytes of its source and the tree over them.
-/

namespace StoryMigration
namespace Syntax

/-- The bytes of a span. -/
def Span.bytes (span : Span) (source : List UInt8) : List UInt8 :=
  (source.drop span.start).take (span.stop - span.start)

/-- A parsed source module. -/
structure Module where
  /-- The source in UTF-8. -/
  bytes : List UInt8
  /-- The tree of the whole source. -/
  tree : Node
  /-- The dialect it was read with. -/
  dialect : Dialect

namespace Module

/-- Reads a source text. -/
def parse? (dialect : Dialect) (source : String) : Option Module :=
  (Syntax.parse? dialect source.toList).map fun tree => ⟨Utf8.ofString source, tree, dialect⟩

/-- The source text of a span. -/
def slice (m : Module) (span : Span) : String :=
  (Utf8.toString? (span.bytes m.bytes)).getD ""

/-- The source text of a node. -/
def text (m : Module) (node : Node) : String := m.slice node.span

/-- The whole source text. -/
def source (m : Module) : String := (Utf8.toString? m.bytes).getD ""

/-- Top-level statements, comments left out. -/
def statements (m : Module) : List Node := m.tree.parts

/-- The bytes before an offset on its line. -/
def lineFront (bytes : List UInt8) (offset : Nat) : List UInt8 :=
  ((bytes.take offset).reverse.takeWhile (· != 0x0a)).reverse

/-- White space at the start of the line a node starts on, as far as it reaches before the node. -/
def lineIndent (m : Module) (node : Node) : String :=
  (Utf8.toString? ((lineFront m.bytes node.start).takeWhile isBlankByte)).getD ""

/-- Nodes that name something bound or referenced. -/
def isReference : Kind → Bool
  | .identifier | .shorthandProperty | .shorthandPattern | .typeIdentifier => true
  | _ => false

/-- Every name bound or referenced anywhere in a tree, as often as it occurs. Property names, object
keys and attribute names are not among them. -/
def identifiers (m : Module) (root : Node) : List String :=
  (root.preorder.filter (isReference ·.kind)).map m.text

/-- Whether a string or template literal below a node spans lines. -/
def hasMultilineLiteral (m : Module) (node : Node) : Bool :=
  node.preorder.any fun inner =>
    (inner.kind == .string || inner.kind == .templateString)
      && (inner.span.bytes m.bytes).contains 0x0a

end Module

/-- Argument expressions of a call, comments left out. -/
def Node.callArguments (call : Node) : List Node :=
  ((call.child? .arguments).map Node.parts).getD []

end Syntax
end StoryMigration
