import Mathlib.Data.List.Pairwise
import StoryMigration.Proofs.LineSpan

/-!
# Trees over a source

What lies below a node, and what is expected of the tree of a source: the
children of a node stand one behind the other inside it, and a top-level
statement starts on a byte that is not blank and has one on its last line.
The statements of such a tree follow each other, and all that lies below one
of them lies inside it.
-/

namespace StoryMigration
namespace Syntax

open Utf8 LineSpan

namespace Node

/-! ## Nodes below a node -/

/-- What holds of a node when it holds of its children holds of every node. -/
theorem childInduction
    {motive : Node → Prop}
    (step : ∀ node, (∀ child ∈ node.children, motive child) → motive node) :
    ∀ node, motive node
  | .mk _ _ _ _ => step _ fun child _ => childInduction step child
termination_by node => sizeOf node
decreasing_by
  rename_i member
  have smaller := List.sizeOf_lt_of_mem member
  simp only [children_mk, Node.mk.sizeOf_spec] at smaller ⊢
  omega

theorem mem_preorder
    {node inner : Node} :
    inner ∈ node.preorder ↔
      inner = node ∨ ∃ child ∈ node.children, inner ∈ child.preorder := by
  rw [preorder_eq, List.mem_cons, List.mem_flatMap]

theorem self_mem_preorder (node : Node) : node ∈ node.preorder :=
  mem_preorder.2 (.inl rfl)

theorem mem_preorder_of_child
    {node child inner : Node}
    (childMember : child ∈ node.children)
    (member : inner ∈ child.preorder) :
    inner ∈ node.preorder :=
  mem_preorder.2 (.inr ⟨child, childMember, member⟩)

theorem child_mem_preorder
    {node child : Node}
    (member : child ∈ node.children) :
    child ∈ node.preorder :=
  mem_preorder_of_child member child.self_mem_preorder

theorem mem_preorder_trans
    {top middle inner : Node}
    (middleMember : middle ∈ top.preorder)
    (innerMember : inner ∈ middle.preorder) :
    inner ∈ top.preorder := by
  induction top using childInduction with
  | step top childHypothesis =>
    rcases mem_preorder.1 middleMember with rfl | ⟨child, childMember, below⟩
    · exact innerMember
    · exact mem_preorder_of_child childMember
        (childHypothesis child childMember below)

/-- What holds of a node when it holds of all nodes below its children holds of
every node. -/
theorem belowInduction
    {motive : Node → Prop}
    (step : ∀ node,
      (∀ child ∈ node.children, ∀ inner ∈ child.preorder, motive inner) →
        motive node)
    (node : Node) : motive node := by
  suffices below : ∀ inner ∈ node.preorder, motive inner from
    below node node.self_mem_preorder
  induction node using childInduction with
  | step node childHypothesis =>
    intro inner member
    rcases mem_preorder.1 member with rfl | ⟨child, childMember, below⟩
    · exact step inner childHypothesis
    · exact childHypothesis child childMember inner below

theorem child?_mem
    {node child : Node}
    {role : Role}
    (found : node.child? role = some child) :
    child ∈ node.children :=
  List.mem_of_find?_eq_some found

theorem namedChildren_subset
    (node : Node) :
    node.namedChildren ⊆ node.children :=
  List.filter_sublist.subset

theorem parts_sublist
    (node : Node) :
    node.parts.Sublist node.children :=
  List.filter_sublist.trans List.filter_sublist

theorem parts_subset
    (node : Node) :
    node.parts ⊆ node.children :=
  (parts_sublist node).subset

/-! ## Nodes that lie inside each other -/

/-- A node whose children stand one behind the other inside it. -/
structure Ordered (node : Node) : Prop where
  forward : node.start ≤ node.stop
  inside : ∀ child ∈ node.children,
    node.start ≤ child.start ∧ child.stop ≤ node.stop
  inTurn : node.children.Pairwise fun a b => a.stop ≤ b.start

instance (node : Node) : Decidable node.Ordered :=
  decidable_of_iff
    (node.start ≤ node.stop ∧
      (∀ child ∈ node.children,
        node.start ≤ child.start ∧ child.stop ≤ node.stop) ∧
      node.children.Pairwise fun a b => a.stop ≤ b.start)
    ⟨fun ⟨forward, inside, inTurn⟩ => ⟨forward, inside, inTurn⟩,
      fun ordered => ⟨ordered.forward, ordered.inside, ordered.inTurn⟩⟩

/-- Everywhere below a node children stand one behind the other inside their
parent. -/
def Nested (node : Node) : Prop :=
  ∀ inner ∈ node.preorder, inner.Ordered

instance (node : Node) : Decidable node.Nested :=
  inferInstanceAs (Decidable (∀ inner ∈ node.preorder, inner.Ordered))

theorem Nested.of_mem
    {node inner : Node}
    (nested : node.Nested)
    (member : inner ∈ node.preorder) :
    inner.Nested :=
  fun other below => nested other (mem_preorder_trans member below)

theorem Nested.forward
    {node : Node}
    (nested : node.Nested) :
    node.start ≤ node.stop :=
  (nested node node.self_mem_preorder).forward

/-- What lies below a node lies inside it. -/
theorem Nested.inside
    {node inner : Node}
    (nested : node.Nested)
    (member : inner ∈ node.preorder) :
    node.start ≤ inner.start ∧ inner.stop ≤ node.stop := by
  induction node using childInduction with
  | step node childHypothesis =>
    rcases mem_preorder.1 member with rfl | ⟨child, childMember, below⟩
    · exact ⟨Nat.le_refl _, Nat.le_refl _⟩
    · have childInside :=
        (nested node node.self_mem_preorder).inside child childMember
      have innerInside := childHypothesis child childMember
        (nested.of_mem (child_mem_preorder childMember)) below
      omega

/-- Of two different children one stands behind the other. -/
theorem Nested.inTurn_of_ne
    {node a b : Node}
    (nested : node.Nested)
    (aMember : a ∈ node.children)
    (bMember : b ∈ node.children)
    (different : a ≠ b) :
    a.stop ≤ b.start ∨ b.stop ≤ a.start := by
  have either : node.children.Pairwise fun a b =>
      a.stop ≤ b.start ∨ b.stop ≤ a.start :=
    (nested node node.self_mem_preorder).inTurn.imp .inl
  have symmetric : Std.Symm fun a b : Node =>
      a.stop ≤ b.start ∨ b.stop ≤ a.start := ⟨fun _ _ => Or.symm⟩
  exact either.forall aMember bMember different

/-- A child that starts before another one also stops before it starts. -/
theorem Nested.stop_le_start
    {node a b : Node}
    (nested : node.Nested)
    (aMember : a ∈ node.children)
    (bMember : b ∈ node.children)
    (before : a.start < b.start) :
    a.stop ≤ b.start := by
  have different : a ≠ b := by
    rintro rfl
    exact Nat.lt_irrefl _ before
  have bForward := (nested.of_mem (child_mem_preorder bMember)).forward
  rcases nested.inTurn_of_ne aMember bMember different with inOrder | reversed
  · exact inOrder
  · omega

end Node

/-! ## The tree of a source -/

namespace Module

/-- A module whose tree lies over its source: children stand one behind the
other inside their parents, and every statement starts on a byte that is not
blank and has one on its last line. -/
structure Orderly (m : Module) : Prop where
  nested : m.tree.Nested
  inside : m.tree.stop ≤ m.bytes.length
  anchored : ∀ statement ∈ m.statements, Anchored m.bytes statement

/-- The source is text, and no node cuts a character of it in two. -/
structure Readable (m : Module) : Prop where
  text : IsText m.bytes
  boundaries : ∀ node ∈ m.tree.preorder,
    IsBoundary m.bytes node.start ∧ IsBoundary m.bytes node.stop

/-- A source in ASCII is readable. -/
theorem Readable.of_ascii
    {m : Module}
    (text : IsText m.bytes)
    (ascii : ∀ b ∈ m.bytes, b.toNat < 0x80)
    (inside : ∀ node ∈ m.tree.preorder,
      node.start ≤ m.bytes.length ∧ node.stop ≤ m.bytes.length) :
    m.Readable := by
  have boundary {offset : Nat} (offsetInside : offset ≤ m.bytes.length) :
      IsBoundary m.bytes offset := by
    rcases Nat.lt_or_eq_of_le offsetInside with below | whole
    · exact (text.boundaries_of_ascii (List.getElem?_eq_getElem below)
        (ascii _ (List.getElem_mem below))).1
    · rw [whole]
      exact text.boundary_length
  refine ⟨text, fun node member => ?_⟩
  obtain ⟨startInside, stopInside⟩ := inside node member
  exact ⟨boundary startInside, boundary stopInside⟩

/-- An orderly module in ASCII, as far as that can be computed. -/
def LaidOut (m : Module) : Prop :=
  m.tree.Nested ∧ m.tree.stop ≤ m.bytes.length ∧
    (∀ statement ∈ m.statements, statement.start < statement.stop ∧
      Solid m.bytes statement.start ∧ Solid m.bytes (statement.stop - 1)) ∧
    ∀ b ∈ m.bytes, b.toNat < 0x80

instance (m : Module) : Decidable m.LaidOut :=
  inferInstanceAs (Decidable (_ ∧ _))

theorem LaidOut.orderly
    {m : Module}
    (laidOut : m.LaidOut) :
    m.Orderly := by
  obtain ⟨nested, inside, ends, -⟩ := laidOut
  refine ⟨nested, inside, fun statement member => ?_⟩
  obtain ⟨forward, first, last⟩ := ends statement member
  exact .of_ends forward first last

theorem LaidOut.readable
    {m : Module}
    {dialect : Dialect}
    {source : String}
    (laidOut : m.LaidOut)
    (parsed : parse? dialect source = some m) :
    m.Readable := by
  obtain ⟨nested, inside, -, ascii⟩ := laidOut
  have text : IsText m.bytes := by
    obtain ⟨tree, -, same⟩ := Option.map_eq_some_iff.1 parsed
    rw [← same]
    exact .ofString source
  refine .of_ascii text ascii fun node member => ?_
  have nodeInside := nested.inside member
  have forward := (nested.of_mem member).forward
  omega

theorem statement_mem_preorder
    {m : Module}
    {statement : Node}
    (member : statement ∈ m.statements) :
    statement ∈ m.tree.preorder :=
  Node.child_mem_preorder (m.tree.parts_subset member)

/-- The statements of a module follow each other. -/
theorem Orderly.inTurn
    {m : Module}
    (orderly : m.Orderly) :
    m.statements.Pairwise fun a b => a.stop ≤ b.start :=
  (orderly.nested m.tree m.tree.self_mem_preorder).inTurn.sublist
    m.tree.parts_sublist

theorem Orderly.statement
    {m : Module}
    {statement : Node}
    (orderly : m.Orderly)
    (member : statement ∈ m.statements) :
    statement.Nested ∧ statement.stop ≤ m.bytes.length := by
  have below := statement_mem_preorder member
  exact ⟨orderly.nested.of_mem below,
    Nat.le_trans (orderly.nested.inside below).2 orderly.inside⟩

end Module

end Syntax
end StoryMigration
