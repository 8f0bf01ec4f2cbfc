import StoryMigration.Proofs.LiteralValue
import StoryMigration.Proofs.MovedLines
import StoryMigration.Proofs.UncutPlaces

/-!
# Literals in code that is moved

The text of a node that is copied with its lines moved is its text in every
respect but white space at the starts of lines.  Strings and templates start
with their quotation marks, so they are not touched: one that goes over a line
feed keeps the whole text from being moved.  A literal of another kind that goes
over several lines is moved with them.
-/

namespace StoryMigration

open Syntax Utf8

/-! ## Texts of nodes -/

namespace Syntax

/-- Of two places in a text the front of one starts with that of the other. -/
theorem exists_append_of_byteLength_le
    {front back front' back' : List Char}
    (same : front ++ back = front' ++ back')
    (before : byteLength front ≤ byteLength front') :
    ∃ more, front' = front ++ more := by
  rcases List.append_eq_append_iff.1 same with ⟨more, frontEq, -⟩ | ⟨more, frontEq, -⟩
  · exact ⟨more, frontEq⟩
  · cases more with
    | nil => exact ⟨[], by rw [frontEq, List.append_nil, List.append_nil]⟩
    | cons c more =>
      have positive := c.utf8Size_pos
      rw [frontEq, byteLength_append, ← List.singleton_append, byteLength_append,
        byteLength_singleton] at before
      omega

theorem append_inj_of_byteLength
    {front back front' back' : List Char}
    (same : front ++ back = front' ++ back')
    (lengthEq : byteLength front = byteLength front') :
    front = front' ∧ back = back' := by
  obtain ⟨more, rfl⟩ := exists_append_of_byteLength_le same (Nat.le_of_eq lengthEq)
  cases more with
  | nil =>
    rw [List.append_nil] at same
    exact ⟨(List.append_nil _).symm, List.append_cancel_left same⟩
  | cons c more =>
    have positive := c.utf8Size_pos
    rw [byteLength_append, ← List.singleton_append, byteLength_append,
      byteLength_singleton] at lengthEq
    omega

namespace Module

variable {dialect : Dialect} {source : String} {m : Module} {node inner : Node}

/-- The text of a node stands where the node does. -/
theorem exists_text
    (parsed : parse? dialect source = some m)
    (isNode : node ∈ m.tree.preorder) :
    ∃ front back, source.toList = front ++ ((m.text node).toList ++ back) ∧
      node.start = byteLength front ∧
      node.stop = byteLength (front ++ (m.text node).toList) := by
  obtain ⟨bytesEq, overlaid⟩ := exists_overlaid parsed
  have stands := overlaid.stands node isNode
  obtain ⟨front, rest, textEq, startEq⟩ := stands.start.isBetween
  obtain ⟨whole, back, textEq', stopEq⟩ := stands.between
  have forward := (overlaid.nested.of_mem isNode).forward
  obtain ⟨body, rfl⟩ := exists_append_of_byteLength_le (textEq.symm.trans textEq')
    (by omega)
  have restEq : rest = body ++ back := by
    rw [textEq, List.append_assoc] at textEq'
    exact List.append_cancel_left textEq'
  rw [restEq] at textEq
  have startAt : (⟨body ++ back, node.start, []⟩ : Cursor).At source.toList
      (body ++ back) := ⟨⟨front, textEq, startEq⟩, rfl⟩
  have stopAt : (⟨back, node.stop, []⟩ : Cursor).At source.toList back :=
    ⟨⟨front ++ body, textEq', stopEq⟩, rfl⟩
  have same : m.text node = String.ofList body := slice_between bytesEq startAt stopAt
  refine ⟨front, back, ?_, startEq, ?_⟩
  · rw [same, String.toList_ofList]
    exact textEq
  · rw [same, String.toList_ofList]
    exact stopEq

/-- The text of a node is part of the texts of those around it. -/
theorem exists_text_below
    (parsed : parse? dialect source = some m)
    (isNode : node ∈ m.tree.preorder)
    (below : inner ∈ node.preorder) :
    ∃ front back,
      (m.text node).toList = front ++ ((m.text inner).toList ++ back) ∧
        inner.start = node.start + byteLength front := by
  obtain ⟨-, overlaid⟩ := exists_overlaid parsed
  have inside := (overlaid.nested.of_mem isNode).inside below
  obtain ⟨front, back, textEq, startEq, stopEq⟩ := exists_text parsed isNode
  obtain ⟨innerFront, innerBack, innerEq, innerStart, innerStop⟩ :=
    exists_text parsed (Node.mem_preorder_trans isNode below)
  obtain ⟨more, rfl⟩ := exists_append_of_byteLength_le
    (textEq.symm.trans innerEq) (by omega)
  rw [textEq, List.append_assoc] at innerEq
  have behindFront := List.append_cancel_left innerEq
  rw [← List.append_assoc more] at behindFront
  obtain ⟨rest, wholeEq⟩ := exists_append_of_byteLength_le behindFront.symm (by
    rw [byteLength_append] at stopEq innerStop ⊢
    rw [byteLength_append] at innerStop
    omega)
  refine ⟨more, rest, by rw [wholeEq, List.append_assoc], ?_⟩
  rw [innerStart, startEq, byteLength_append]

/-- The text of a string or a template starts with its quotation mark. -/
theorem exists_text_quote
    (parsed : parse? dialect source = some m)
    (isNode : node ∈ m.tree.preorder)
    (isLiteral : node.kind = .string ∨ node.kind = .templateString) :
    ∃ quote rest, (m.text node).toList = quote :: rest ∧ isQuote quote = true := by
  obtain ⟨front, back, textEq, startEq, stopEq⟩ := exists_text parsed isNode
  obtain ⟨opening, quote, behind, quoteEq, quoteStart, quoteStop, isQuote⟩ :=
    opensQuote_of_parse? parsed isNode isLiteral
  obtain ⟨rfl, bodyEq⟩ := append_inj_of_byteLength
    (textEq.symm.trans quoteEq) (startEq.symm.trans quoteStart)
  cases bodyIs : (m.text node).toList with
  | nil =>
    have positive := quote.utf8Size_pos
    rw [bodyIs, List.append_nil] at stopEq
    rw [byteLength_append, byteLength_singleton] at quoteStop
    omega
  | cons c rest =>
    rw [bodyIs] at bodyEq
    cases bodyEq
    exact ⟨_, rest, rfl, isQuote⟩

/-- The white space in front of a node on its line is white space. -/
theorem isWhite_lineIndent
    (m : Module)
    (node : Node) :
    ∀ c ∈ (m.lineIndent node).toList, isWhite c = true := by
  unfold lineIndent
  generalize bytesEq : (lineFront m.bytes node.start).takeWhile isBlankByte = bytes
  have blank : ∀ b ∈ bytes, isBlankByte b = true := by
    rw [← bytesEq]
    exact fun b member => List.mem_takeWhile_imp member
  obtain ⟨chars, charsEq, white⟩ : ∃ chars, bytes = encode chars ∧
      ∀ c ∈ chars, isWhite c = true := by
    clear bytesEq
    induction bytes with
    | nil => exact ⟨[], rfl, by simp⟩
    | cons b bytes bytesHypothesis =>
      obtain ⟨bBlank, bytesBlank⟩ := List.forall_mem_cons.1 blank
      obtain ⟨chars, charsEq, white⟩ := bytesHypothesis bytesBlank
      obtain ⟨-, c, cEq, -, cWhite⟩ := exists_blank_of_isBlankByte bBlank
      refine ⟨c :: chars, ?_, List.forall_mem_cons.2 ⟨cWhite, white⟩⟩
      rw [← List.singleton_append (x := c), encode_append, cEq, charsEq]
      rfl
  rw [charsEq, toString?, decode?_encode]
  simpa using white

/-- Only literals of one line stand in a text that is not copied as a whole. -/
theorem feed_notMem_text_of_single
    (parsed : parse? dialect source = some m)
    (isNode : node ∈ m.tree.preorder)
    (single : m.hasMultilineLiteral node = false)
    {literal : Node}
    (below : literal ∈ node.preorder)
    (isLiteral : literal.kind = .string ∨ literal.kind = .templateString) :
    '\n' ∉ (m.text literal).toList := by
  intro feed
  obtain ⟨-, overlaid⟩ := exists_overlaid parsed
  have inTree := Node.mem_preorder_trans isNode below
  have bytesEq : literal.span.bytes m.bytes = ofString (m.text literal) :=
    between_eq_ofString_text (readable_of_parse? parsed) inTree
      (overlaid.nested.of_mem inTree).forward
  unfold hasMultilineLiteral at single
  rw [List.any_eq_false] at single
  refine single literal below ?_
  rw [Bool.and_eq_true, Bool.or_eq_true, beq_iff_eq, beq_iff_eq, bytesEq,
    List.contains_iff_mem]
  exact ⟨isLiteral, (mem_encode_iff rfl (by decide) _).2 feed⟩

end Module
end Syntax

/-! ## Nodes with their lines moved -/

namespace Layout

variable {layout : Layout} {m : Module} {node : Node} {level : Int}

/-- The text of a node is copied as a whole: it is one line, or a literal in it goes
over several lines. -/
def CopiesWhole (m : Module) (node : Node) : Prop :=
  '\n' ∉ (m.text node).toList ∨ m.hasMultilineLiteral node = true

theorem white_indent
    (layout : Layout)
    (level : Int) :
    ∀ c ∈ (layout.indent level).toList, isWhite c = true := by
  intro c member
  rw [indent, String.toList_ofList] at member
  rw [List.eq_of_mem_replicate member]
  rfl

theorem feed_notMem_indent
    (layout : Layout)
    (level : Int) :
    '\n' ∉ (layout.indent level).toList := by
  intro member
  rw [indent, String.toList_ofList] at member
  exact absurd (List.eq_of_mem_replicate member) (by decide)

theorem node_of_copiesWhole
    (whole : CopiesWhole m node) :
    layout.node m node level = m.text node := by
  unfold Layout.node
  refine if_pos ?_
  rw [Bool.or_eq_true, Bool.not_eq_true', ← Bool.not_eq_true, List.contains_iff_mem]
  exact whole

theorem toList_node
    (moved : ¬ CopiesWhole m node) :
    (layout.node m node level).toList =
      movedText (m.lineIndent node).toList (layout.indent level).toList
        (m.text node).toList := by
  unfold Layout.node
  rw [if_neg]
  · rw [String.toList_intercalate, List.map_map]
    simp [movedText]
  · rw [Bool.or_eq_true, Bool.not_eq_true', ← Bool.not_eq_true, List.contains_iff_mem]
    exact moved

/-- The part of a node's text that a node below it covers comes out as some text,
which starts on the same line. -/
def ComesOutAs
    (layout : Layout)
    (m : Module)
    (node inner : Node)
    (level : Int)
    (part : List Char) : Prop :=
  ∃ front back front' back',
    (m.text node).toList = front ++ ((m.text inner).toList ++ back) ∧
      inner.start = node.start + byteLength front ∧
      (layout.node m node level).toList = front' ++ (part ++ back') ∧
      (linesOf front').length = (linesOf front).length

/-- Lines of which the first is that of some others and the rest have the content of
theirs. -/
structure KeepsLines (lines moved : List (List Char)) : Prop where
  first : moved.head? = lines.head?
  rest : List.Forall₂ KeepsContent lines.tail moved.tail

theorem keepsLines_movedLines
    {base indent : List Char}
    (baseWhite : ∀ c ∈ base, isWhite c = true)
    (indentWhite : ∀ c ∈ indent, isWhite c = true)
    (text : List Char) :
    KeepsLines (linesOf text) (movedLines base indent text) := by
  obtain ⟨first, rest, textEq⟩ := List.exists_cons_of_ne_nil (linesOf_ne_nil text)
  rw [movedLines_eq, textEq]
  refine ⟨rfl, ?_⟩
  show List.Forall₂ KeepsContent rest (rest.map (movedLine base indent))
  rw [List.forall₂_map_right_iff, List.forall₂_same]
  exact fun line _ => keepsContent_movedLine baseWhite indentWhite line

section Parsed

variable
  (layout level)
  {dialect : Dialect}
  {source : String}
  {inner : Node}
  (parsed : Module.parse? dialect source = some m)
  (isNode : node ∈ m.tree.preorder)
  (below : inner ∈ node.preorder)

include parsed isNode below

/-- The front of a node is moved up to where something starts in it. -/
theorem exists_moved
    (moved : ¬ CopiesWhole m node)
    {c : Char}
    {rest : List Char}
    (textEq : (m.text inner).toList = c :: rest)
    (solid : isWhite c = false) :
    ∃ front back front',
      (m.text node).toList = front ++ ((m.text inner).toList ++ back) ∧
        inner.start = node.start + byteLength front ∧
        (layout.node m node level).toList = front' ++
          movedText (m.lineIndent node).toList (layout.indent level).toList
            ((m.text inner).toList ++ back) ∧
        (linesOf front').length = (linesOf front).length := by
  obtain ⟨front, back, nodeEq, startEq⟩ := Module.exists_text_below parsed isNode below
  refine ⟨front, back,
    movedFront (m.lineIndent node).toList (layout.indent level).toList front,
    nodeEq, startEq, ?_,
    length_linesOf_movedFront (layout.feed_notMem_indent level) front⟩
  rw [toList_node moved, nodeEq, textEq, List.cons_append]
  exact movedText_append_solid (m.isWhite_lineIndent node) front (rest ++ back) solid

theorem comesOutAs_of_copiesWhole
    (whole : CopiesWhole m node) :
    ComesOutAs layout m node inner level (m.text inner).toList := by
  obtain ⟨front, back, nodeEq, startEq⟩ := Module.exists_text_below parsed isNode below
  exact ⟨front, back, front, back, nodeEq, startEq,
    by rw [node_of_copiesWhole whole, nodeEq], rfl⟩

/-- Strings and templates come out as they are. -/
theorem comesOutAs_literal
    (isLiteral : inner.kind = .string ∨ inner.kind = .templateString) :
    ComesOutAs layout m node inner level (m.text inner).toList := by
  by_cases whole : CopiesWhole m node
  · exact comesOutAs_of_copiesWhole layout level parsed isNode below whole
  · obtain ⟨quote, rest, textEq, isQuote⟩ := Module.exists_text_quote parsed
      (Node.mem_preorder_trans isNode below) isLiteral
    have solid : isWhite quote = false := by
      simp only [Syntax.isQuote, Bool.or_eq_true, beq_iff_eq] at isQuote
      rcases isQuote with (rfl | rfl) | rfl <;> decide
    obtain ⟨front, back, front', nodeEq, startEq, movedEq, sameLines⟩ :=
      exists_moved layout level parsed isNode below whole textEq solid
    have single : m.hasMultilineLiteral node = false := by
      rw [← Bool.not_eq_true]
      exact fun isMultiline => whole (.inr isMultiline)
    have free := Module.feed_notMem_text_of_single parsed isNode single below isLiteral
    exact ⟨front, back, front', _, nodeEq, startEq,
      by rw [movedEq, movedText_append_line free], sameLines⟩

/-- What starts and ends with something else than white space comes out with its
lines moved. -/
theorem comesOutAs_moved
    (moved : ¬ CopiesWhole m node)
    {first last : Char}
    {rest front : List Char}
    (starts : (m.text inner).toList = first :: rest)
    (ends : (m.text inner).toList = front ++ [last])
    (firstSolid : isWhite first = false)
    (lastSolid : isWhite last = false) :
    ComesOutAs layout m node inner level
      (movedText (m.lineIndent node).toList (layout.indent level).toList
        (m.text inner).toList) := by
  obtain ⟨before, back, before', nodeEq, startEq, movedEq, sameLines⟩ :=
    exists_moved layout level parsed isNode below moved starts firstSolid
  refine ⟨before, back, before',
    movedText (m.lineIndent node).toList (layout.indent level).toList back,
    nodeEq, startEq, ?_, sameLines⟩
  rw [movedEq, ends]
  congr 1
  exact movedText_append_behind (m.isWhite_lineIndent node) front back lastSolid

end Parsed

/-- A text that starts and ends with something else than white space. -/
structure SolidEnds (text : List Char) : Prop where
  first : ∃ c rest, text = c :: rest ∧ isWhite c = false
  last : ∃ front c, text = front ++ [c] ∧ isWhite c = false

/-- A node of one line, or with a string or a template over several lines in it, is
copied as it is.  Another one keeps the number of its lines, the first of them, and
of the others what stands behind their white space; one that is only white space
becomes empty.  In both cases every string and every template in the node comes out
as it is.  What else stands in a node that is moved, a template that is a type as
well, is moved with it, and stays the same exactly if each of its lines but the
first does. -/
theorem node_keeps_lines_and_literals
    {dialect : Dialect}
    {source : String}
    (layout : Layout)
    (level : Int)
    (parsed : Module.parse? dialect source = some m)
    (isNode : node ∈ m.tree.preorder) :
    (CopiesWhole m node → layout.node m node level = m.text node) ∧
      (¬ CopiesWhole m node → KeepsLines (linesOf (m.text node).toList)
        (linesOf (layout.node m node level).toList)) ∧
      ∀ inner ∈ node.preorder,
        (CopiesWhole m node ∨ inner.kind = .string ∨ inner.kind = .templateString →
          ComesOutAs layout m node inner level (m.text inner).toList) ∧
        (¬ CopiesWhole m node → SolidEnds (m.text inner).toList →
          ComesOutAs layout m node inner level
              (movedText (m.lineIndent node).toList (layout.indent level).toList
                (m.text inner).toList) ∧
            (movedText (m.lineIndent node).toList (layout.indent level).toList
                (m.text inner).toList = (m.text inner).toList ↔
              ∀ line ∈ (linesOf (m.text inner).toList).tail,
                StaysPut (m.lineIndent node).toList (layout.indent level).toList
                  line)) := by
  refine ⟨node_of_copiesWhole, fun moved => ?_, fun inner below => ⟨?_, ?_⟩⟩
  · rw [toList_node moved, linesOf_movedText (layout.feed_notMem_indent level)]
    exact keepsLines_movedLines (m.isWhite_lineIndent node)
      (layout.white_indent level) _
  · rintro (whole | isLiteral)
    · exact comesOutAs_of_copiesWhole layout level parsed isNode below whole
    · exact comesOutAs_literal layout level parsed isNode below isLiteral
  · rintro moved ⟨⟨first, rest, starts, firstSolid⟩, front, last, ends, lastSolid⟩
    refine ⟨comesOutAs_moved layout level parsed isNode below moved starts ends
      firstSolid lastSolid, ?_⟩
    rw [movedText_eq_self_iff (layout.feed_notMem_indent level)]
    exact forall₂_congr fun line _ => movedLine_eq_self_iff _ _ line

set_option maxRecDepth 100000 in
/-- A call over two lines whose text is moved, with a string that is not. -/
theorem node_keeps_string_of_call :
    ∃ m node literal,
      Module.parse? .javascript "f(a,\n    'b');\n" = some m ∧
      node ∈ m.tree.preorder ∧ m.text node = "f(a,\n    'b');" ∧
      ¬ CopiesWhole m node ∧
      KeepsLines (linesOf (m.text node).toList)
        (linesOf (({} : Layout).node m node 1).toList) ∧
      literal ∈ node.preorder ∧ m.text literal = "'b'" ∧
      ComesOutAs {} m node literal 1 "'b'".toList ∧
      ComesOutAs {} m node node 1
        (movedText (m.lineIndent node).toList "  ".toList (m.text node).toList) := by
  generalize sourceEq : "f(a,\n    'b');\n" = source
  have checked : (Module.parse? .javascript source).any (fun m =>
      m.tree.preorder.any fun node =>
        m.text node == "f(a,\n    'b');" && !m.hasMultilineLiteral node &&
        node.preorder.any fun literal =>
          literal.kind == .string && m.text literal == "'b'") = true := by
    rw [← sourceEq]
    decide +kernel
  obtain ⟨m, parsed, checked⟩ := (Option.any_eq_true _ _).1 checked
  obtain ⟨node, isNode, checked⟩ := List.any_eq_true.1 checked
  simp only [Bool.and_eq_true, beq_iff_eq, Bool.not_eq_true', List.any_eq_true] at checked
  obtain ⟨⟨text, single⟩, literal, below, isString, literalText⟩ := checked
  have moved : ¬ CopiesWhole m node := by
    rintro (free | isMultiline)
    · rw [text] at free
      exact free (by decide)
    · rw [single] at isMultiline
      contradiction
  have solid : SolidEnds (m.text node).toList := by
    rw [text]
    exact ⟨⟨'f', _, rfl, by decide⟩, "f(a,\n    'b')".toList, ';', by decide, by decide⟩
  obtain ⟨-, keeps, parts⟩ := node_keeps_lines_and_literals {} 1 parsed isNode
  have literalOut := (parts literal below).1 (.inr (.inl isString))
  rw [literalText] at literalOut
  exact ⟨m, node, literal, parsed, isNode, text, moved, keeps moved, below, literalText,
    literalOut, ((parts node (Node.self_mem_preorder node)).2 moved solid).1⟩

set_option maxRecDepth 100000 in
/-- A template over two lines that is a type does not come out as it is. -/
theorem node_moves_template_type :
    ∃ m node inner,
      Module.parse? .typescript "type T = \x60a\n    b\x60;\n" = some m ∧
      node ∈ m.tree.preorder ∧ inner ∈ node.preorder ∧
      m.text inner = "\x60a\n    b\x60" ∧
      ({} : Layout).node m node 2 = "type T = \x60a\n        b\x60;" ∧
      ¬ (m.text inner).toList <:+: (({} : Layout).node m node 2).toList := by
  generalize sourceEq : "type T = \x60a\n    b\x60;\n" = source
  have checked : (Module.parse? .typescript source).any (fun m =>
      m.tree.preorder.any fun node =>
        ({} : Layout).node m node 2 == "type T = \x60a\n        b\x60;" &&
        node.preorder.any fun inner => m.text inner == "\x60a\n    b\x60") = true := by
    rw [← sourceEq]
    decide +kernel
  obtain ⟨m, parsed, checked⟩ := (Option.any_eq_true _ _).1 checked
  obtain ⟨node, isNode, checked⟩ := List.any_eq_true.1 checked
  rw [Bool.and_eq_true, beq_iff_eq, List.any_eq_true] at checked
  obtain ⟨moved, inner, below, text⟩ := checked
  rw [beq_iff_eq] at text
  refine ⟨m, node, inner, parsed, isNode, below, text, moved, ?_⟩
  rw [text, moved]
  decide +kernel

end Layout
end StoryMigration
