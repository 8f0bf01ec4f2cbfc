import StoryMigration.Proofs.TreeLayout

/-!
# Where the nodes of a module stand

The tree of every source that parses lies over its bytes: children stand one
behind the other inside their parents, no node cuts a character in two, and
every statement starts on a byte that is no blank and has one on its last line.
-/

namespace StoryMigration
namespace Syntax

open Utf8 LineSpan

variable {text : List Char}

/-- A place between characters cuts no character in two. -/
theorem IsBetween.isBoundary
    {offset : Nat}
    (between : IsBetween text offset) :
    IsBoundary (encode text) offset := by
  obtain ⟨front, back, rfl, rfl⟩ := between
  rw [← length_encode, encode_append, IsBoundary, List.take_left, List.drop_left]
  exact ⟨⟨front, rfl⟩, back, rfl⟩

/-- A blank byte is that of a blank character. -/
theorem exists_blank_of_isBlankByte
    {b : UInt8}
    (blank : isBlankByte b = true) :
    b.toNat < 0x80 ∧
      ∃ c, encode [c] = [b] ∧ isBlank c = true ∧ isWhite c = true := by
  have cases' : b = 0x20 ∨ b = 0x09 ∨ b = 0x0a ∨ b = 0x0b ∨ b = 0x0c ∨
      b = 0x0d := by
    simp only [isBlankByte, Bool.or_eq_true, beq_iff_eq, Bool.and_eq_true,
      decide_eq_true_eq, UInt8.le_iff_toNat_le, ← UInt8.toNat_inj] at blank ⊢
    simp only [UInt8.reduceToNat] at blank ⊢
    omega
  rcases cases' with rfl | rfl | rfl | rfl | rfl | rfl
  · exact ⟨by decide, ' ', rfl, by decide, by decide⟩
  · exact ⟨by decide, '\t', rfl, by decide, by decide⟩
  · exact ⟨by decide, '\n', rfl, by decide, by decide⟩
  · exact ⟨by decide, '\x0b', rfl, by decide, by decide⟩
  · exact ⟨by decide, '\x0c', rfl, by decide, by decide⟩
  · exact ⟨by decide, '\r', rfl, by decide, by decide⟩

/-- A character that is no blank starts on a byte that is none. -/
theorem solid_of_isBlank
    {c : Char}
    {front back : List Char}
    (solid : isBlank c = false) :
    Solid (encode (front ++ c :: back)) (byteLength front) := by
  have nonempty : String.utf8EncodeChar c ≠ [] := by
    intro empty
    have size := String.length_utf8EncodeChar c
    have positive := c.utf8Size_pos
    rw [empty] at size
    exact absurd size.symm (Nat.ne_of_gt positive)
  obtain ⟨b, bytes, encoded⟩ := List.exists_cons_of_ne_nil nonempty
  refine ⟨b, ?_, ?_⟩
  · rw [encode_append, encode_cons, encoded, ← length_encode]
    simp
  · by_contra isBlankByte
    rw [Bool.not_eq_false] at isBlankByte
    obtain ⟨ascii, d, single, isBlank, -⟩ := exists_blank_of_isBlankByte isBlankByte
    have member : b ∈ encode [c] := by
      rw [encode_singleton, encoded]
      exact List.mem_cons_self
    have same := (mem_encode_iff single ascii [c]).1 member
    rw [List.mem_singleton.1 same, solid] at isBlank
    contradiction

/-- A node that stands closed is anchored. -/
theorem StandsClosed.anchored
    {node : Node}
    (closed : StandsClosed text node) :
    Anchored (encode text) node := by
  obtain ⟨front, body, back, rfl, startEq, stopEq, ⟨c, head, first⟩, before, d,
    tail, rfl, last, noFeed⟩ := closed
  refine ⟨?_, byteLength (front ++ before), ?_, ?_, ?_, ?_⟩
  · obtain ⟨rest, bodyEq⟩ := List.head?_eq_some_iff.1 head
    rw [startEq, bodyEq, List.append_assoc, List.cons_append]
    exact solid_of_isBlank first
  · rw [startEq, byteLength_append]
    omega
  · have positive := d.utf8Size_pos
    rw [stopEq, ← List.append_assoc, ← List.singleton_append,
      byteLength_append (front ++ before), byteLength_append [d],
      byteLength_singleton]
    omega
  · have regroup : front ++ (before ++ d :: tail) ++ back =
        front ++ before ++ d :: (tail ++ back) := by simp
    rw [regroup]
    exact solid_of_isBlank last
  · intro offset reached below feed
    have regroup : encode (front ++ (before ++ d :: tail) ++ back) =
        encode (front ++ before) ++ (encode (d :: tail) ++ encode back) := by
      rw [← encode_append, ← encode_append]
      simp
    have lengthEq : node.stop =
        (encode (front ++ before)).length + (encode (d :: tail)).length := by
      rw [stopEq, ← List.length_append, ← encode_append, length_encode]
      simp
    rw [← length_encode] at reached
    rw [regroup, List.getElem?_append_right reached,
      List.getElem?_append_left (by omega)] at feed
    have member : '\n' ∈ d :: tail :=
      (mem_encode_iff rfl (by decide) _).1 (List.mem_of_getElem? feed)
    rcases List.mem_cons.1 member with rfl | member
    · contradiction
    · exact noFeed member

/-- Children stand one behind the other inside their parents, and what a member
is taken of stands in front of the member's name. -/
structure Node.InOrder (tree : Node) : Prop where
  nested : tree.Nested
  members : ∀ node ∈ tree.preorder, node.kind = .memberExpression →
    MemberInTurn node.children

theorem Node.InOrder.of_mem
    {tree node : Node}
    (inOrder : tree.InOrder)
    (member : node ∈ tree.preorder) :
    node.InOrder where
  nested := inOrder.nested.of_mem member
  members inner below := inOrder.members inner (Node.mem_preorder_trans member below)

namespace Module

variable {dialect : Dialect} {source : String} {m : Module}

/-- The tree of a module that parses overlays its source. -/
theorem exists_overlaid
    (parsed : parse? dialect source = some m) :
    m.bytes = encode source.toList ∧ Overlaid source.toList m.tree := by
  obtain ⟨tree, readTree, rfl⟩ := Option.map_eq_some_iff.1 parsed
  exact ⟨rfl, overlaid_of_parse? readTree⟩

theorem orderly_of_parse?
    (parsed : parse? dialect source = some m) :
    m.Orderly := by
  obtain ⟨bytesEq, overlaid⟩ := exists_overlaid parsed
  refine ⟨overlaid.nested, ?_, fun statement member => ?_⟩
  · rw [bytesEq, length_encode, overlaid.whole]
  · have noComment : statement.kind ≠ .comment := by
      simpa using (List.mem_filter.1 member).2
    rw [bytesEq]
    exact (overlaid.closed statement (m.tree.parts_subset member)
      noComment).anchored

theorem inOrder_of_parse?
    (parsed : parse? dialect source = some m) :
    m.tree.InOrder := by
  obtain ⟨-, overlaid⟩ := exists_overlaid parsed
  exact ⟨overlaid.nested, fun node member isMember =>
    overlaid.members node member (by rw [isMember]; rfl)⟩

/-- A string or a template string starts with its quotation mark. -/
theorem opensQuote_of_parse?
    (parsed : parse? dialect source = some m)
    {literal : Node}
    (member : literal ∈ m.tree.preorder)
    (isLiteral : literal.kind = .string ∨ literal.kind = .templateString) :
    OpensQuote source.toList literal := by
  obtain ⟨-, overlaid⟩ := exists_overlaid parsed
  refine (overlaid.stands literal member).quoted ?_
  rcases isLiteral with kindEq | kindEq <;> rw [kindEq] <;> rfl

/-- Text between tags stands directly behind one and goes on up to the next. -/
theorem isInset_of_parse?
    (parsed : parse? dialect source = some m)
    {node : Node}
    (member : node ∈ m.tree.preorder)
    (isText : node.kind = .jsxText) :
    IsInset source.toList node := by
  obtain ⟨-, overlaid⟩ := exists_overlaid parsed
  exact (overlaid.stands node member).inset (by rw [isText]; rfl)

theorem readable_of_parse?
    (parsed : parse? dialect source = some m) :
    m.Readable := by
  obtain ⟨bytesEq, overlaid⟩ := exists_overlaid parsed
  refine ⟨⟨_, bytesEq⟩, fun node member => ?_⟩
  have stands := overlaid.stands node member
  rw [bytesEq]
  exact ⟨stands.start.isBetween.isBoundary, stands.between.isBoundary⟩

end Module

end Syntax
end StoryMigration
