import StoryMigration.Proofs.LocatedFragments

/-!
# Whose comments are whose

A comment in the statements of a fragment lies in an argument of one of its
calls or is free.  The search tells the two apart by places in the source; as the
tree lies over the source, this is the same as looking below the arguments.
Every free comment belongs to one link, the first one that is named behind it or
else the last one, and each link has its comments in the order of the source.
-/

namespace StoryMigration
namespace Syntax
namespace Node

/-- Of two nodes of a nested tree one lies below the other, or one stands behind
the other. -/
theorem Nested.below_or_apart
    {tree first second : Node}
    (nested : tree.Nested)
    (isFirst : first ∈ tree.preorder)
    (isSecond : second ∈ tree.preorder) :
    (first ∈ second.preorder ∨ second ∈ first.preorder) ∨
      first.stop ≤ second.start ∨ second.stop ≤ first.start := by
  induction tree using childInduction with
  | step tree childHypothesis =>
    rcases mem_preorder.1 isFirst with rfl | ⟨child, isChild, inChild⟩
    · exact .inl (.inr isSecond)
    rcases mem_preorder.1 isSecond with rfl | ⟨other, isOther, inOther⟩
    · exact .inl (.inl isFirst)
    have childNested := nested.of_mem (child_mem_preorder isChild)
    by_cases same : child = other
    · subst same
      exact childHypothesis child isChild childNested inChild inOther
    · have firstInside := childNested.inside inChild
      have secondInside :=
        (nested.of_mem (child_mem_preorder isOther)).inside inOther
      have apart := nested.inTurn_of_ne isChild isOther same
      omega

/-- Leaves of some kind stand one behind the other, in the order in which they
come up. -/
theorem Nested.inTurn_leaves
    {node : Node}
    {test : Node → Bool}
    (nested : node.Nested)
    (leaf : ∀ inner ∈ node.preorder, test inner = true → inner.children = []) :
    (node.preorder.filter test).Pairwise fun a b => a.stop ≤ b.start := by
  induction node using childInduction with
  | step node childHypothesis =>
    rw [preorder_eq]
    by_cases isSuch : test node = true
    · rw [leaf node node.self_mem_preorder isSuch, List.flatMap_nil]
      exact List.Pairwise.filter _ (List.pairwise_singleton _ _)
    · rw [List.filter_cons_of_neg isSuch, List.filter_flatMap, List.pairwise_flatMap]
      constructor
      · intro child isChild
        exact childHypothesis child isChild
          (nested.of_mem (child_mem_preorder isChild))
          fun inner inChild => leaf inner (mem_preorder_of_child isChild inChild)
      · have inTurn := (nested node node.self_mem_preorder).inTurn
        refine inTurn.imp_of_mem fun {child other} isChild isOther before a inChild b
          inOther => ?_
        have firstInside := (nested.of_mem (child_mem_preorder isChild)).inside
          (List.mem_filter.1 inChild).1
        have secondInside := (nested.of_mem (child_mem_preorder isOther)).inside
          (List.mem_filter.1 inOther).1
        omega

end Node

/-! ## Comments of a tree -/

/-- A tree in which nodes lie inside each other as they do in the source, and
comments are leaves of some length. -/
structure Node.Commented (tree : Node) : Prop where
  nested : tree.Nested
  leaf : ∀ inner ∈ tree.preorder, inner.kind = .comment → inner.children = []
  forward : ∀ inner ∈ tree.preorder, inner.kind = .comment →
    inner.start < inner.stop

theorem Module.commented_of_parse?
    {dialect : Dialect}
    {source : String}
    {m : Module}
    (parsed : Module.parse? dialect source = some m) :
    m.tree.Commented := by
  obtain ⟨-, overlaid⟩ := Module.exists_overlaid parsed
  exact ⟨overlaid.nested, fun inner below isComment =>
    (overlaid.notes inner below isComment).1, fun inner below isComment =>
    (overlaid.notes inner below isComment).2⟩

namespace Node.Commented

variable {tree comment node : Node}

/-- A comment starts inside a node exactly if it lies below it. -/
theorem starts_iff_below
    (commented : tree.Commented)
    (inTree : comment ∈ tree.preorder)
    (isComment : comment.kind = .comment)
    (isNode : node ∈ tree.preorder) :
    (node.start ≤ comment.start ∧ comment.start < node.stop) ↔
      comment ∈ node.preorder := by
  have forward := commented.forward comment inTree isComment
  constructor
  · rintro ⟨reached, before⟩
    rcases commented.nested.below_or_apart inTree isNode with
      (below | above) | apart
    · exact below
    · rcases mem_preorder.1 above with rfl | ⟨child, isChild, -⟩
      · exact node.self_mem_preorder
      · rw [commented.leaf comment inTree isComment] at isChild
        contradiction
    · omega
  · intro below
    have inside := (commented.nested.of_mem isNode).inside below
    omega

/-- Different comments stand apart. -/
theorem apart
    {other : Node}
    (commented : tree.Commented)
    (inTree : comment ∈ tree.preorder)
    (isComment : comment.kind = .comment)
    (otherInTree : other ∈ tree.preorder)
    (otherIsComment : other.kind = .comment)
    (different : comment ≠ other) :
    comment.stop ≤ other.start ∨ other.stop ≤ comment.start := by
  have noneBelow {first second : Node}
      (inTree : second ∈ tree.preorder)
      (isComment : second.kind = .comment)
      (below : first ∈ second.preorder) :
      first = second := by
    rcases mem_preorder.1 below with same | ⟨child, isChild, -⟩
    · exact same
    · rw [commented.leaf second inTree isComment] at isChild
      contradiction
  rcases commented.nested.below_or_apart inTree otherInTree with
    (below | above) | apart
  · exact absurd (noneBelow otherInTree otherIsComment below) different
  · exact absurd (noneBelow inTree isComment above).symm different
  · exact apart

end Node.Commented
end Syntax

namespace Chain

open Syntax Fallible

variable {m : Module} {localName : String} {fragment : Fragment}

/-! ## Free comments -/

/-- A node lies in an argument of a link or among the arguments of the root. -/
def Fragment.LiesInArguments (fragment : Fragment) (node : Node) : Prop :=
  (∃ link ∈ fragment.links, ∃ argument ∈ link.arguments,
      node ∈ argument.preorder) ∨
    ∃ arguments, fragment.root.child? .arguments = some arguments ∧
      node ∈ arguments.preorder

/-- A comment in the statements of a fragment that lies in no arguments. -/
structure Fragment.IsFree (fragment : Fragment) (comment : Node) : Prop where
  isComment : comment.kind = .comment
  inStatement : ∃ statement ∈ fragment.statements, comment ∈ statement.preorder
  outside : ¬ fragment.LiesInArguments comment

/-- A fragment whose statements are some of a module, in their order, and whose
root and arguments stand in that module too. -/
structure Fragment.StandsIn (m : Module) (fragment : Fragment) : Prop where
  statements : fragment.statements.Sublist m.statements
  arguments : ∀ link ∈ fragment.links, ∀ argument ∈ link.arguments,
    argument ∈ m.tree.preorder
  root : fragment.root ∈ m.tree.preorder

theorem Fragment.StandsIn.inTree
    {statement inner : Node}
    (stands : fragment.StandsIn m)
    (isStatement : statement ∈ fragment.statements)
    (below : inner ∈ statement.preorder) :
    inner ∈ m.tree.preorder :=
  Node.mem_preorder_trans
    (Module.statement_mem_preorder (stands.statements.subset isStatement)) below

/-- The search finds the free comments by their places. -/
theorem mem_looseComments_iff
    {comment : Node}
    (stands : fragment.StandsIn m)
    (commented : m.tree.Commented) :
    comment ∈ looseComments fragment ↔ fragment.IsFree comment := by
  -- inside one of the spans is below one of the nodes that have them
  have inSpan
      (inTree : comment ∈ m.tree.preorder)
      (isComment : comment.kind = .comment) :
      ((argumentSpans fragment).any fun span =>
          span.start ≤ comment.start && comment.start < span.stop) = true ↔
        fragment.LiesInArguments comment := by
    rw [List.any_eq_true]
    unfold argumentSpans Fragment.LiesInArguments
    simp only [List.mem_append, List.mem_flatMap, List.mem_map, Option.mem_toList,
      Option.map_eq_some_iff, Bool.and_eq_true, decide_eq_true_eq]
    constructor
    · rintro ⟨-, (⟨link, isLink, argument, isArgument, rfl⟩ |
        ⟨arguments, found, rfl⟩), inside⟩
      · refine .inl ⟨link, isLink, argument, isArgument, ?_⟩
        exact (commented.starts_iff_below inTree isComment
          (stands.arguments link isLink argument isArgument)).1 inside
      · refine .inr ⟨arguments, found, ?_⟩
        exact (commented.starts_iff_below inTree isComment
          (Node.mem_preorder_trans stands.root
            (Node.child_mem_preorder (Node.child?_mem found)))).1 inside
    · rintro (⟨link, isLink, argument, isArgument, below⟩ | ⟨arguments, found, below⟩)
      · refine ⟨_, .inl ⟨link, isLink, argument, isArgument, rfl⟩, ?_⟩
        exact (commented.starts_iff_below inTree isComment
          (stands.arguments link isLink argument isArgument)).2 below
      · refine ⟨_, .inr ⟨arguments, found, rfl⟩, ?_⟩
        exact (commented.starts_iff_below inTree isComment
          (Node.mem_preorder_trans stands.root
            (Node.child_mem_preorder (Node.child?_mem found)))).2 below
  unfold looseComments
  simp only [List.mem_filter, List.mem_flatMap, beq_iff_eq, Bool.not_eq_true']
  constructor
  · rintro ⟨⟨statement, isStatement, below, isComment⟩, outside⟩
    refine ⟨isComment, ⟨statement, isStatement, below⟩, fun lies => ?_⟩
    rw [(inSpan (stands.inTree isStatement below) isComment).2 lies] at outside
    contradiction
  · rintro ⟨isComment, ⟨statement, isStatement, below⟩, outside⟩
    refine ⟨⟨statement, isStatement, below, isComment⟩, ?_⟩
    rw [← Bool.not_eq_true, inSpan (stands.inTree isStatement below) isComment]
    exact outside

/-- The search finds the free comments in the order of the source. -/
theorem looseComments_inTurn
    (stands : fragment.StandsIn m)
    (commented : m.tree.Commented) :
    (looseComments fragment).Pairwise fun a b => a.stop ≤ b.start := by
  unfold looseComments
  refine List.Pairwise.filter _ (List.pairwise_flatMap.2 ⟨?_, ?_⟩)
  · intro statement isStatement
    have below := Module.statement_mem_preorder
      (stands.statements.subset isStatement)
    refine (commented.nested.of_mem below).inTurn_leaves fun inner inStatement
      isComment => ?_
    exact commented.leaf inner (stands.inTree isStatement inStatement)
      (beq_iff_eq.1 isComment)
  · have inTurn := ((commented.nested m.tree m.tree.self_mem_preorder).inTurn.sublist
      m.tree.parts_sublist).sublist stands.statements
    refine inTurn.imp_of_mem fun {first second} isFirst isSecond before a inFirst b
      inSecond => ?_
    have nested {statement : Node} (isStatement : statement ∈ fragment.statements) :=
      commented.nested.of_mem (Module.statement_mem_preorder
        (stands.statements.subset isStatement))
    have firstInside := (nested isFirst).inside (List.mem_filter.1 inFirst).1
    have secondInside := (nested isSecond).inside (List.mem_filter.1 inSecond).1
    omega

/-- No comment is found twice. -/
theorem looseComments_nodup
    (stands : fragment.StandsIn m)
    (commented : m.tree.Commented) :
    (looseComments fragment).Nodup := by
  refine (looseComments_inTurn stands commented).imp_of_mem
    fun {first second} isFirst _ before => ?_
  rintro rfl
  have free := (mem_looseComments_iff stands commented).1 isFirst
  obtain ⟨statement, isStatement, below⟩ := free.inStatement
  have forward := commented.forward first (stands.inTree isStatement below)
    free.isComment
  omega

/-! ## Owners -/

/-- The link at an index is the one that a comment belongs to: the first of which
the method is named behind the comment, or the last one if there is none. -/
inductive IsOwner (links : List Link) (comment : Node) (index : Nat) : Prop
  | following
      {link : Link}
      (here : links[index]? = some link)
      (behind : comment.start < link.property.start)
      (first : ∀ earlier ∈ links.take index,
        earlier.property.start ≤ comment.start)
  | last
      (none : ∀ link ∈ links, link.property.start ≤ comment.start)
      (isLast : index + 1 = links.length)

theorem isOwner_iff
    {links : List Link}
    {comment : Node}
    {index : Nat}
    (linked : links ≠ []) :
    IsOwner links comment index ↔ ownerOf links comment = index := by
  have positive := List.length_pos_iff.2 linked
  unfold ownerOf
  cases found : links.findIdx? fun link =>
      decide (comment.start < link.property.start) with
  | none =>
    have none : ∀ link ∈ links, link.property.start ≤ comment.start := by
      simpa [List.findIdx?_eq_none_iff] using found
    rw [Option.getD_none]
    constructor
    · rintro (⟨here, behind, -⟩ | ⟨-, isLast⟩)
      · have := none _ (List.mem_of_getElem? here)
        omega
      · omega
    · exact fun same => .last none (by omega)
  | some position =>
    obtain ⟨inside, behind, first⟩ := List.findIdx?_eq_some_iff_getElem.1 found
    rw [decide_eq_true_eq] at behind
    rw [Option.getD_some]
    have here : links[position]? = some links[position] :=
      List.getElem?_eq_getElem inside
    constructor
    · rintro (⟨here', behind', first'⟩ | ⟨none, -⟩)
      · by_contra different
        rcases Nat.lt_or_gt_of_ne different with earlier | later
        · have isEarlier : links[position] ∈ links.take index :=
            List.mem_take_iff_getElem.2
              ⟨position, Nat.lt_min.2 ⟨earlier, inside⟩, rfl⟩
          have := first' _ isEarlier
          omega
        · obtain ⟨indexInside, same⟩ := List.getElem?_eq_some_iff.1 here'
          have noneEarlier := first index later
          rw [same] at noneEarlier
          simp only [behind', decide_true, not_true_eq_false] at noneEarlier
      · have := none _ (List.getElem_mem inside)
        omega
    · rintro rfl
      refine .following here behind fun earlier isEarlier => ?_
      obtain ⟨place, before, rfl⟩ := List.mem_take_iff_getElem.1 isEarlier
      simpa using first place (by omega)

theorem ownerOf_lt
    {links : List Link}
    (linked : links ≠ [])
    (comment : Node) :
    ownerOf links comment < links.length := by
  have positive := List.length_pos_iff.2 linked
  rcases (isOwner_iff linked).2 rfl with ⟨here, -⟩ | ⟨-, isLast⟩
  · exact (List.getElem?_eq_some_iff.1 here).1
  · omega

/-- Every free comment belongs to the link that owns it and to no other link, and
no other comments belong to a link. -/
structure Fragment.OwnsComments (fragment : Fragment) : Prop where
  owned : ∀ comment, fragment.IsFree comment →
    ∃ index link, fragment.links[index]? = some link ∧
      IsOwner fragment.links comment index ∧
      ∀ other otherLink, fragment.links[other]? = some otherLink →
        (comment ∈ otherLink.comments ↔ other = index)
  free : ∀ link ∈ fragment.links, ∀ comment ∈ link.comments,
    fragment.IsFree comment

/-- Each link has those free comments that it owns. -/
def Fragment.Attached (fragment : Fragment) : Prop :=
  ∀ index link, fragment.links[index]? = some link →
    link.comments = (looseComments fragment).filter fun comment =>
      ownerOf fragment.links comment == index

theorem ownerOf_congr
    {links others : List Link}
    (same : links.map Link.bare = others.map Link.bare)
    (comment : Node) :
    ownerOf links comment = ownerOf others comment := by
  have ofBare (links : List Link) :
      ownerOf links comment = ownerOf (links.map Link.bare) comment := by
    unfold ownerOf
    rw [List.findIdx?_map, List.length_map]
    rfl
  rw [ofBare, same, ← ofBare]

theorem looseComments_attachComments
    (fragment : Fragment) :
    looseComments (attachComments fragment) = looseComments fragment := by
  have argumentsEq (links : List Link) :
      (links.flatMap fun link => link.arguments.map Node.span) =
        (links.map Link.bare).flatMap fun link => link.arguments.map Node.span := by
    rw [List.flatMap_map]
    rfl
  have spans : argumentSpans (attachComments fragment) = argumentSpans fragment := by
    unfold argumentSpans
    rw [argumentsEq, bare_attachComments, ← argumentsEq]
    rfl
  unfold looseComments
  rw [spans]
  rfl

/-- Comments are attached to the links of every fragment that is found. -/
theorem attached_of_allFragments
    {fragments : List Fragment}
    (found : allFragments m localName = .ok fragments)
    (member : fragment ∈ fragments) :
    fragment.Attached := by
  rw [allFragments, bind_eq_ok] at found
  obtain ⟨progress, runs, made⟩ := found
  rw [pure_eq_ok] at made
  rw [← made] at member
  obtain ⟨bare, isBare, rfl⟩ := List.mem_map.1 member
  intro index link here
  rw [looseComments_attachComments]
  simp only [ownerOf_congr (bare_attachComments bare)]
  unfold attachComments at here
  rw [List.getElem?_mapIdx] at here
  obtain ⟨old, oldHere, rfl⟩ := Option.map_eq_some_iff.1 here
  rw [progress_comments runs bare isBare old (List.mem_of_getElem? oldHere),
    List.nil_append]

/-- Every fragment that is found stands in the module. -/
theorem standsIn_of_allFragments
    {fragments : List Fragment}
    (found : allFragments m localName = .ok fragments)
    (member : fragment ∈ fragments)
    (statements : fragment.statements.Sublist m.statements) :
    fragment.StandsIn m where
  statements := statements
  arguments link isLink argument isArgument := by
    obtain ⟨parts, each, linksEq⟩ :=
      (threaded_of_allFragments found member).holdsLinks
    have collected : fragment.Collected m localName := ⟨parts, each, linksEq⟩
    obtain ⟨statement, isStatement, below⟩ :=
      collected.argument_mem isLink isArgument
    exact Node.mem_preorder_trans
      (Module.statement_mem_preorder (statements.subset isStatement)) below
  root := by
    obtain ⟨expression, _, _, expressionFound, chained, -⟩ :=
      threaded_of_allFragments found member
    exact Node.mem_preorder_trans
      (Module.statement_mem_preorder (statements.subset List.mem_cons_self))
      (Node.mem_preorder_trans (statementExpression_eq_some expressionFound).1
        chained.base_mem.1)

namespace Fragment.Attached

variable
  (attached : fragment.Attached)
  (linked : fragment.links ≠ [])

include attached

theorem comments_sublist
    {link : Link}
    (isLink : link ∈ fragment.links) :
    link.comments.Sublist (looseComments fragment) := by
  obtain ⟨index, here⟩ := List.mem_iff_getElem?.1 isLink
  rw [attached index link here]
  exact List.filter_sublist

include linked

/-- Every comment that is found is one of the link that owns it, and of no
other. -/
theorem exists_owner
    {comment : Node}
    (isLoose : comment ∈ looseComments fragment) :
    ∃ index link, fragment.links[index]? = some link ∧
      IsOwner fragment.links comment index ∧
      ∀ other otherLink, fragment.links[other]? = some otherLink →
        (comment ∈ otherLink.comments ↔ other = index) := by
  have inside := ownerOf_lt linked comment
  refine ⟨_, _, List.getElem?_eq_getElem inside, (isOwner_iff linked).2 rfl,
    fun other otherLink here => ?_⟩
  rw [attached other otherLink here, List.mem_filter, beq_iff_eq]
  exact ⟨fun owned => owned.2.symm, fun same => ⟨isLoose, same.symm⟩⟩

theorem ownsComments
    (stands : fragment.StandsIn m)
    (commented : m.tree.Commented) :
    fragment.OwnsComments where
  owned _ isFree :=
    attached.exists_owner linked ((mem_looseComments_iff stands commented).2 isFree)
  free _ isLink _ isComment := (mem_looseComments_iff stands commented).1
    ((attached.comments_sublist isLink).subset isComment)

/-- The comments of all links are the ones that are found, each of them once. -/
theorem comments_of_links
    (nodup : (looseComments fragment).Nodup) :
    (fragment.links.flatMap (·.comments)).Nodup ∧
      ∀ comment, comment ∈ fragment.links.flatMap (·.comments) ↔
        comment ∈ looseComments fragment := by
  constructor
  · refine List.pairwise_flatMap.2 ⟨fun link isLink =>
      nodup.sublist (attached.comments_sublist isLink), ?_⟩
    rw [List.pairwise_iff_getElem]
    intro first second firstInside secondInside before comment inFirst other inSecond
    rintro rfl
    have isLoose := (attached.comments_sublist (List.getElem_mem firstInside)).subset
      inFirst
    obtain ⟨index, link, -, -, only⟩ := attached.exists_owner linked isLoose
    have firstEq := (only first _ (List.getElem?_eq_getElem firstInside)).1 inFirst
    have secondEq := (only second _ (List.getElem?_eq_getElem secondInside)).1 inSecond
    omega
  · intro comment
    rw [List.mem_flatMap]
    constructor
    · rintro ⟨link, isLink, isComment⟩
      exact (attached.comments_sublist isLink).subset isComment
    · intro isLoose
      obtain ⟨index, link, here, -, only⟩ := attached.exists_owner linked isLoose
      exact ⟨link, List.mem_of_getElem? here, (only index link here).2 rfl⟩

end Fragment.Attached

/-! ## Supported fragments -/

/-- A fragment that can be converted, with the comments of its links. -/
structure Fragment.Annotated
    (m : Module)
    (localName : String)
    (fragment : Fragment) : Prop where
  threaded : fragment.Threaded m localName
  stands : fragment.StandsIn m
  commented : m.tree.Commented
  attached : fragment.Attached
  wellFormed : ∀ link ∈ fragment.links, link.isWellFormed = true

theorem annotated_of_supported
    {dialect : Dialect}
    {source : String}
    {m : Module}
    {registration : Registration}
    {located : Located}
    {fragment : Fragment}
    (parsed : Module.parse? dialect source = some m)
    (found : locate m registration = .ok located)
    (supported : fragment ∈ located.fragments) :
    fragment.Annotated m located.localName := by
  have sound := locate_sound found
  obtain ⟨isSupported, -, statements⟩ := sound.of_mem supported
  obtain ⟨all, allFound, isOne⟩ : ∃ all,
      allFragments m located.localName = .ok all ∧ fragment ∈ all := by
    by_cases someRoots : located.roots = []
    · rw [sound.noFragments someRoots] at supported
      contradiction
    · obtain ⟨all, allFound, same⟩ := sound.fragments someRoots
      rw [same] at supported
      exact ⟨all, allFound, (List.mem_filter.1 supported).1⟩
  unfold Chain.isSupported at isSupported
  rw [Bool.and_eq_true, List.all_eq_true] at isSupported
  exact ⟨threaded_of_allFragments allFound isOne,
    standsIn_of_allFragments allFound isOne statements,
    Module.commented_of_parse? parsed, attached_of_allFragments allFound isOne,
    isSupported.1⟩

end Chain
end StoryMigration
