import StoryMigration.Proofs.Splice
import StoryMigration.Proofs.Tree
import StoryMigration.Source.ImportRemoval

/-!
# Edits that belong to a statement

The edits of a conversion each belong to one statement: they exchange bytes of
the statement and of the white space around it, and start and stop at edges of
nodes or of lines.  Edits that belong to different statements leave each other
alone.
-/

namespace StoryMigration

open Syntax Utf8 LineSpan

/-- An edit that stays within a statement and white space around it, and cuts
no character in two. -/
structure Edit.BelongsTo
    (m : Module)
    (statement : Node)
    (edit : Edit) : Prop where
  ordered : edit.start ≤ edit.stop
  within : ∃ span, Grown m.bytes statement span ∧
    (span.start : Int) ≤ edit.start ∧ edit.stop ≤ span.stop
  boundaries : m.Readable →
    IsBoundary m.bytes edit.span.start ∧ IsBoundary m.bytes edit.span.stop

theorem Edit.BelongsTo.fits
    {m : Module}
    {statement : Node}
    {edit : Edit}
    (belongs : edit.BelongsTo m statement) :
    edit.Fits m.bytes.length := by
  obtain ⟨span, grown, startLe, stopLe⟩ := belongs.within
  have inside := grown.inside
  exact ⟨by omega, belongs.ordered, by omega⟩

/-- Edits that belong to two statements, one behind the other, leave each
other alone. -/
theorem Edit.BelongsTo.apart
    {m : Module}
    {a b : Node}
    {aEdit bEdit : Edit}
    (aBelongs : aEdit.BelongsTo m a)
    (bBelongs : bEdit.BelongsTo m b)
    (inTurn : a.stop ≤ b.start)
    (aAnchored : Anchored m.bytes a)
    (bAnchored : Anchored m.bytes b) :
    aEdit.Apart bEdit := by
  obtain ⟨aSpan, aGrown, -, aStop⟩ := aBelongs.within
  obtain ⟨bSpan, bGrown, bStart, -⟩ := bBelongs.within
  have spansApart := aGrown.stop_le_start bGrown inTurn aAnchored bAnchored
  left
  omega

/-! ## Edits between edges of nodes -/

/-- An offset at which a node below another one starts or stops. -/
def Edge (top : Node) (offset : Nat) : Prop :=
  ∃ node ∈ top.preorder, offset = node.start ∨ offset = node.stop

theorem Edge.inside
    {top : Node}
    {offset : Nat}
    (nested : top.Nested)
    (edge : Edge top offset) :
    top.start ≤ offset ∧ offset ≤ top.stop := by
  obtain ⟨node, below, isEdge⟩ := edge
  have inside := nested.inside below
  have forward := (nested.of_mem below).forward
  omega

theorem Edge.boundary
    {m : Module}
    {statement : Node}
    {offset : Nat}
    (readable : m.Readable)
    (member : statement ∈ m.statements)
    (edge : Edge statement offset) :
    IsBoundary m.bytes offset := by
  obtain ⟨node, below, isEdge⟩ := edge
  have boundaries := readable.boundaries node
    (Node.mem_preorder_trans (Module.statement_mem_preorder member) below)
  rcases isEdge with rfl | rfl
  · exact boundaries.1
  · exact boundaries.2

/-- Exchanging the bytes between two edges of a statement. -/
theorem belongsTo_of_edges
    {m : Module}
    {statement : Node}
    {first last : Nat}
    (orderly : m.Orderly)
    (member : statement ∈ m.statements)
    (firstEdge : Edge statement first)
    (lastEdge : Edge statement last)
    (ordered : first ≤ last)
    (text : Text) :
    Edit.BelongsTo m statement ⟨first, last, text⟩ := by
  obtain ⟨nested, inside⟩ := orderly.statement member
  have firstInside := firstEdge.inside nested
  have lastInside := lastEdge.inside nested
  refine ⟨Int.ofNat_le.2 ordered, ⟨statement.span, .self inside, ?_, ?_⟩,
    fun readable => ⟨?_, ?_⟩⟩
  · exact Int.ofNat_le.2 firstInside.1
  · exact Int.ofNat_le.2 lastInside.2
  · exact firstEdge.boundary readable member
  · exact lastEdge.boundary readable member

/-- Writing some code in place of a statement. -/
theorem replacing_belongsTo
    {m : Module}
    {statement : Node}
    (orderly : m.Orderly)
    (member : statement ∈ m.statements)
    (code : String) :
    (Edit.replacing statement.start statement.stop code).BelongsTo m
      statement := by
  have self := statement.self_mem_preorder
  exact belongsTo_of_edges orderly member ⟨statement, self, .inl rfl⟩
    ⟨statement, self, .inr rfl⟩ (orderly.statement member).1.forward _

/-- Removing a statement with its line. -/
theorem removal_belongsTo
    {m : Module}
    {statement : Node}
    (orderly : m.Orderly)
    (member : statement ∈ m.statements)
    (absorb : Bool) :
    (LineSpan.removal m statement absorb).BelongsTo m statement := by
  obtain ⟨nested, inside⟩ := orderly.statement member
  have grown := around_grown absorb nested.forward inside
  have before := grown.before
  have behind := grown.behind
  have forward := nested.forward
  refine ⟨?_, ⟨_, grown, Int.le_refl _, Int.le_refl _⟩, fun readable => ?_⟩
  · exact Int.ofNat_le.2 (by omega)
  · have boundaries := readable.boundaries statement
      (Module.statement_mem_preorder member)
    exact grown.boundaries readable.text boundaries.1 boundaries.2

/-! ## The removal of an import -/

namespace ImportRemoval

theorem statementOf?_eq_some
    {m : Module}
    {specifier statement : Node}
    (found : statementOf? m specifier = some statement) :
    statement ∈ m.statements ∧ statement.kind = .importStatement := by
  have isImport := List.find?_some found
  rw [Bool.and_eq_true, beq_iff_eq] at isImport
  exact ⟨List.mem_of_find?_eq_some found, isImport.1⟩

theorem parentOf?_eq_some
    {top node parent : Node}
    (found : parentOf? top node = some parent) :
    parent ∈ top.preorder ∧
      ∃ child ∈ parent.children, child.span = node.span := by
  have holds := List.find?_some found
  simp only [List.any_eq_true, Bool.and_eq_true, beq_iff_eq] at holds
  obtain ⟨child, member, -, same⟩ := holds
  exact ⟨List.mem_of_find?_eq_some found, child, member, same⟩

/-- The neighbour before an item starts before it. -/
theorem neighbour_before
    {nodes : List Node}
    {start : Nat}
    {previous : Node}
    (found : (neighbours nodes start).1 = some previous) :
    previous ∈ nodes ∧ previous.start < start := by
  have member := List.mem_of_getLast? found
  exact ⟨(List.takeWhile_sublist _).subset member,
    by simpa using List.mem_takeWhile_imp member⟩

/-- The neighbour behind an item does not start before it. -/
theorem neighbour_behind
    {nodes : List Node}
    {start : Nat}
    {next : Node}
    (forward : ∀ node ∈ nodes, node.start ≤ node.stop)
    (inTurn : nodes.Pairwise fun a b => a.stop ≤ b.start)
    (found : (neighbours nodes start).2 = some next) :
    next ∈ nodes ∧ start ≤ next.start := by
  have stops := List.head?_dropWhile_not
    (fun node : Node => decide (node.start < start)) nodes
  have sublist : (nodes.dropWhile (fun node : Node =>
      decide (node.start < start))).Sublist nodes := List.dropWhile_sublist _
  simp only [neighbours] at found
  cases behind : nodes.dropWhile (·.start < start) with
  | nil =>
    rw [behind] at found
    contradiction
  | cons item rest =>
    rw [behind, List.drop_one, List.tail_cons] at found
    rw [behind, List.head?_cons] at stops
    rw [behind] at sublist
    simp only [decide_eq_false_iff_not, Nat.not_lt] at stops
    have nextMember := List.mem_of_head? found
    have itemBefore :=
      (List.pairwise_cons.1 (inTurn.sublist sublist)).1 next nextMember
    have itemForward :=
      forward item (sublist.subset List.mem_cons_self)
    exact ⟨sublist.subset (List.mem_cons_of_mem _ nextMember), by omega⟩

/-- The removal of a child together with what stands between it and a
neighbour belongs to the statement around them. -/
theorem neighbour_belongsTo
    {m : Module}
    {statement parent child item : Node}
    {nodes : List Node}
    (orderly : m.Orderly)
    (member : statement ∈ m.statements)
    (below : parent ∈ statement.preorder)
    (childMember : child ∈ parent.children)
    (sameSpan : child.span = item.span)
    (sublist : nodes.Sublist parent.children) :
    (∀ previous, (neighbours nodes item.start).1 = some previous →
        Edit.BelongsTo m statement (.removal previous.stop item.stop)) ∧
      ∀ next, (neighbours nodes item.start).2 = some next →
        Edit.BelongsTo m statement (.removal item.start next.start) := by
  have nested := (orderly.statement member).1.of_mem below
  have startEq : item.start = child.start := by
    rw [Node.start, ← sameSpan]
    rfl
  have stopEq : item.stop = child.stop := by
    rw [Node.stop, ← sameSpan]
    rfl
  have childBelow {node : Node} (isChild : node ∈ parent.children) :
      node ∈ statement.preorder :=
    Node.mem_preorder_trans below (Node.child_mem_preorder isChild)
  have childForward {node : Node} (isChild : node ∈ parent.children) :
      node.start ≤ node.stop :=
    (nested.of_mem (Node.child_mem_preorder isChild)).forward
  rw [startEq, stopEq]
  refine ⟨fun previous found => ?_, fun next found => ?_⟩
  · obtain ⟨previousMember, before⟩ := neighbour_before found
    have previousChild := sublist.subset previousMember
    have stopLe := nested.stop_le_start previousChild childMember before
    have forward := childForward childMember
    exact belongsTo_of_edges orderly member
      ⟨previous, childBelow previousChild, .inr rfl⟩
      ⟨child, childBelow childMember, .inr rfl⟩ (by omega) []
  · have inTurn := (nested parent parent.self_mem_preorder).inTurn
    obtain ⟨nextMember, startLe⟩ := neighbour_behind
      (fun node isNode => childForward (sublist.subset isNode))
      (inTurn.sublist sublist) found
    exact belongsTo_of_edges orderly member
      ⟨child, childBelow childMember, .inl rfl⟩
      ⟨next, childBelow (sublist.subset nextMember), .inl rfl⟩ startLe []

/-- The removal of an import takes nothing but bytes of its statement and
white space around it. -/
theorem edit_belongsTo
    {m : Module}
    {statement : Node}
    (orderly : m.Orderly)
    (member : statement ∈ m.statements)
    (specifier : Node) :
    (edit m statement specifier).BelongsTo m statement ∧
      (edit m statement specifier).replacement = [] := by
  have whole := removal_belongsTo orderly member false
  unfold edit
  split
  · exact ⟨whole, rfl⟩
  · rename_i braces bracesFound
    obtain ⟨bracesBelow, child, childMember, sameSpan⟩ :=
      parentOf?_eq_some bracesFound
    have specifiers := neighbour_belongsTo orderly member bracesBelow
      childMember sameSpan
      (List.filter_sublist.trans List.filter_sublist :
        (braces.namedChildren.filter (·.kind == .importSpecifier)).Sublist
          braces.children)
    simp only
    split
    · split
      · rename_i next found
        exact ⟨specifiers.2 next (congrArg Prod.snd found), rfl⟩
      · rename_i previous found
        exact ⟨specifiers.1 previous (congrArg Prod.fst found), rfl⟩
      · exact ⟨whole, rfl⟩
    · split
      · exact ⟨whole, rfl⟩
      · rename_i clause clauseFound
        obtain ⟨clauseBelow, inner, innerMember, sameInnerSpan⟩ :=
          parentOf?_eq_some clauseFound
        have parts := neighbour_belongsTo orderly member clauseBelow
          innerMember sameInnerSpan clause.parts_sublist
        split
        · rename_i previous _ found
          exact ⟨parts.1 previous (congrArg Prod.fst found), rfl⟩
        · rename_i next found
          exact ⟨parts.2 next (congrArg Prod.snd found), rfl⟩
        · exact ⟨whole, rfl⟩

end ImportRemoval

end StoryMigration
