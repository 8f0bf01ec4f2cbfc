import StoryMigration.Proofs.CopiedExpressions
import StoryMigration.Proofs.FragmentLinks
import StoryMigration.Proofs.LineEndings
import StoryMigration.Proofs.ModuleLayout
import StoryMigration.Proofs.ResidualLines

/-!
# Places that cut no line ending in two

The ends of lines and the ends of nodes lie across no line ending, and so do the
ends of spans that are grown over white space.  The expressions that are copied
from a chain are nodes in its statements.
-/

namespace StoryMigration

open Syntax Utf8 LineSpan

/-! ## Places that cut no line ending in two -/

theorem unsplitAt_of_feed
    {bytes : List UInt8}
    {offset : Nat}
    (feed : bytes[offset - 1]? = some 0x0a) :
    UnsplitAt bytes offset := by
  intro last
  rw [List.getLast?_take, feed] at last
  split at last
  · contradiction
  · exact absurd (Option.some.inj last) (by decide)

theorem unsplitAt_zero
    (bytes : List UInt8) :
    UnsplitAt bytes 0 := by
  intro last
  rw [List.take_zero] at last
  contradiction

theorem unsplitAt_length
    (bytes : List UInt8) :
    UnsplitAt bytes bytes.length := by
  intro _
  rw [List.drop_length]
  exact nofun

theorem Residual.AtLine.unsplitAt
    {bytes : List UInt8}
    {offset : Nat}
    (atLine : Residual.AtLine bytes offset) :
    UnsplitAt bytes offset := by
  rcases atLine with rfl | rfl | feed
  · exact unsplitAt_zero bytes
  · exact unsplitAt_length bytes
  · exact unsplitAt_of_feed feed

theorem Syntax.IsSharp.unsplitAt
    {text : List Char}
    {offset : Nat}
    (sharp : IsSharp text offset) :
    UnsplitAt (encode text) offset := by
  obtain ⟨front, back, rfl, rfl, apart⟩ := sharp
  rw [← length_encode, encode_append, UnsplitAt, List.take_left, List.drop_left]
  exact unsplit_encode apart

/-- A span that takes white space only cuts no line ending in two if the node
inside it does not. -/
theorem LineSpan.Grown.unsplitAt
    {bytes : List UInt8}
    {node : Node}
    {span : Span}
    (grown : Grown bytes node span)
    (start : UnsplitAt bytes node.start)
    (stop : UnsplitAt bytes node.stop) :
    UnsplitAt bytes span.start ∧ UnsplitAt bytes span.stop := by
  constructor
  · rcases grown.startsLine with same | zero | feed
    · rwa [same]
    · rw [zero]
      exact unsplitAt_zero bytes
    · exact unsplitAt_of_feed feed
  · rcases grown.endsLine with same | whole | feed
    · rwa [same]
    · rw [whole]
      exact unsplitAt_length bytes
    · exact unsplitAt_of_feed feed

/-! ## Texts of nodes -/

namespace Syntax.Module

variable {m : Module} {node : Node}

/-- The bytes of a node are those of its text. -/
theorem between_eq_ofString_text
    (readable : m.Readable)
    (isNode : node ∈ m.tree.preorder)
    (forward : node.start ≤ node.stop) :
    between m.bytes node.start node.stop = ofString (m.text node) := by
  obtain ⟨start, stop⟩ := readable.boundaries node isNode
  obtain ⟨text, read, same⟩ := (start.isText_between stop forward).exists_string
  have textEq : m.text node = text := by
    show (toString? (between m.bytes node.start node.stop)).getD "" = text
    rw [between, read, Option.getD_some]
  rw [textEq, same, between]

/-- A text that does not end in a carriage return ends in no line ending. -/
theorem unsplitAt_stop
    (readable : m.Readable)
    (isNode : node ∈ m.tree.preorder)
    (forward : node.start ≤ node.stop)
    (start : UnsplitAt m.bytes node.start)
    (ends : (m.text node).toList.getLast? ≠ some '\r') :
    UnsplitAt m.bytes node.stop := by
  have textEq := between_eq_ofString_text readable isNode forward
  intro last
  rw [← take_append_between m.bytes forward] at last
  by_cases empty : between m.bytes node.start node.stop = []
  · rw [empty, List.append_nil] at last
    rcases Nat.lt_or_ge node.start m.bytes.length with inside | beyond
    · have lengthEq := congrArg List.length empty
      rw [between, List.length_take, List.length_drop, List.length_nil] at lengthEq
      have same : node.start = node.stop := by omega
      rw [← same]
      exact start last
    · rw [List.drop_of_length_le (Nat.le_trans beyond forward), List.head?_nil]
      exact (Option.some_ne_none _).symm
  · rw [List.getLast?_append_of_ne_nil _ empty, textEq] at last
    exact absurd (getLast?_of_encode last) ends

end Syntax.Module

/-! ## Nodes of a chain -/

namespace Story

open Chain Fallible

variable {m : Module} {fragment : Fragment}

theorem mem_of_ofObject
    {object : Node}
    {members : List Member}
    {member : Member}
    (read : Member.ofObject m object = .ok members)
    (isMember : member ∈ members) :
    member.node ∈ object.preorder := by
  obtain ⟨node, isNode, made⟩ := mem_of_mapM read isMember
  unfold Member.ofNode at made
  simp only [bind_eq_ok, pure_eq_ok] at made
  obtain ⟨key, -, rfl⟩ := made
  exact Node.child_mem_preorder (object.namedChildren_subset isNode)

theorem Member.value_mem
    (member : Member) :
    member.value ∈ member.node.preorder := by
  unfold Member.value
  split
  · cases found : member.node.child? .value with
    | none => exact member.node.self_mem_preorder
    | some value => exact Node.child_mem_preorder (Node.child?_mem found)
  · exact member.node.self_mem_preorder

theorem Own.mem_preorder
    {argument expression : Node}
    (own : Own m argument expression) :
    expression ∈ argument.preorder := by
  cases own with
  | whole => exact argument.self_mem_preorder
  | member isObject read decorated needed isMember isOther =>
    exact mem_of_ofObject read isMember
  | @decorators front back member isObject read defines isLast =>
    exact Node.mem_preorder_trans
      (mem_of_ofObject read (List.mem_append_right _ List.mem_cons_self))
      member.value_mem

/-- What is kept of a chain stands in an argument of a link. -/
theorem Kept.below_argument
    {expression : Node}
    (kept : Kept m fragment expression) :
    ∃ link ∈ fragment.links, ∃ argument ∈ link.arguments,
      expression ∈ argument.preorder := by
  cases kept with
  | @decorator link _ isLink isFirst =>
    exact ⟨link, (List.mem_filter.1 isLink).1, expression,
      List.mem_of_head? isFirst, expression.self_mem_preorder⟩
  | @parameter parts member read isLast =>
    obtain ⟨front, back, partsEq, -⟩ := isLast
    have isMember : member ∈ parts.flatten := by
      rw [partsEq]
      exact List.mem_append_right _ List.mem_cons_self
    obtain ⟨part, isPart, isMember⟩ := List.mem_flatten.1 isMember
    obtain ⟨argument, isArgument, made⟩ := mem_of_mapM read isPart
    obtain ⟨link, isLink, isFirst⟩ := List.mem_filterMap.1 isArgument
    refine ⟨link, (List.mem_filter.1 isLink).1, argument,
      List.mem_of_head? isFirst, ?_⟩
    unfold Member.ofArgument at made
    split at made
    · exact mem_of_ofObject made isMember
    · rw [← Except.ok.inj made, List.mem_singleton] at isMember
      rw [isMember]
      exact argument.self_mem_preorder
  | @render link _ _ _ isLink arguments =>
    refine ⟨link, (List.mem_filter.1 isLink).1, expression, ?_,
      expression.self_mem_preorder⟩
    rw [arguments]
    simp
  | @own link _ _ argument _ _ isLink arguments own =>
    refine ⟨link, (List.mem_filter.1 isLink).1, argument, ?_, own.mem_preorder⟩
    rw [arguments]
    simp

/-- What is kept of a chain stands in its statements. -/
theorem Kept.mem_preorder
    {localName : String}
    {expression : Node}
    (collected : fragment.Collected m localName)
    (kept : Kept m fragment expression) :
    ∃ statement ∈ fragment.statements, expression ∈ statement.preorder := by
  obtain ⟨link, isLink, argument, isArgument, inside⟩ := kept.below_argument
  obtain ⟨statement, isStatement, member⟩ := collected.argument_mem isLink isArgument
  exact ⟨statement, isStatement, Node.mem_preorder_trans member inside⟩

end Story

end StoryMigration
