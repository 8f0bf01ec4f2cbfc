import StoryMigration.Proofs.ExportedComments

/-!
# Comments between the parentheses of a call

The calls of a fragment stand one behind the other, and in each of them the
method is named in front of the parentheses.  So a comment between these that
lies in no argument is free, and the next link is the first one named behind it:
it comes out with that link, and stays with its own only where there is no
next one.
-/

namespace StoryMigration
namespace Syntax

/-- The arguments of every call stand behind what is called. -/
def Node.CallsInTurn (tree : Node) : Prop :=
  ∀ call ∈ tree.preorder, call.kind = .callExpression →
    InTurnAs .callee .arguments call.children

theorem Module.callsInTurn_of_parse?
    {dialect : Dialect}
    {source : String}
    {m : Module}
    (parsed : Module.parse? dialect source = some m) :
    m.tree.CallsInTurn := by
  obtain ⟨-, overlaid⟩ := Module.exists_overlaid parsed
  exact fun call below isCall => overlaid.calls call below (by rw [isCall]; rfl)

theorem Node.CallsInTurn.of_mem
    {tree node : Node}
    (callsInTurn : tree.CallsInTurn)
    (member : node ∈ tree.preorder) :
    node.CallsInTurn :=
  fun call below => callsInTurn call (Node.mem_preorder_trans member below)

end Syntax

namespace Chain

open Syntax Fallible

variable {m : Module} {localName : String} {fragment : Fragment}

/-! ## Calls one behind the other -/

/-- What stands between the parentheses of a link's call. -/
def Link.parentheses? (link : Link) : Option Node := link.call.child? .arguments

/-- The method of a link is named in front of its parentheses, and between these
stand its arguments. -/
structure Link.InTurn (link : Link) : Prop where
  forward : link.property.start ≤ link.property.stop
  parentheses : ∀ arguments, link.parentheses? = some arguments →
    link.property.stop ≤ arguments.start ∧ arguments.stop ≤ link.call.stop
  arguments : ∀ argument ∈ link.arguments,
    link.property.stop ≤ argument.start ∧ argument.stop ≤ link.call.stop

theorem exists_of_callArguments
    {call argument : Node}
    (isArgument : argument ∈ call.callArguments) :
    ∃ arguments, call.child? .arguments = some arguments ∧
      argument ∈ arguments.parts := by
  unfold Node.callArguments at isArgument
  cases found : call.child? .arguments with
  | none =>
    rw [found] at isArgument
    contradiction
  | some arguments =>
    rw [found] at isArgument
    exact ⟨arguments, rfl, isArgument⟩

/-- The calls of a chain stand one behind the other, all behind its base. -/
theorem Chained.calls_inTurn
    {expression base : Node}
    {links : List Link}
    (chained : Chained m localName expression base links)
    (inOrder : expression.InOrder)
    (callsInTurn : expression.CallsInTurn) :
    (∀ link ∈ links, link.InTurn ∧ link.call ∈ expression.preorder ∧
        base.stop ≤ link.property.start) ∧
      base.stop ≤ expression.stop ∧
      links.Pairwise fun a b => a.call.stop ≤ b.property.start := by
  induction chained with
  | base =>
    exact ⟨fun _ isLink => absurd isLink List.not_mem_nil, Nat.le_refl _, .nil⟩
  | @call node callee receiver property base links isCall notRoot calleeFound
      isMember receiverFound propertyFound chained chainedHypothesis =>
    have isCallee := Node.child?_mem calleeFound
    have calleeBelow := Node.child_mem_preorder isCallee
    have calleeInOrder := inOrder.of_mem calleeBelow
    have isReceiver := Node.child?_mem receiverFound
    have isProperty := Node.child?_mem propertyFound
    have receiverBelow := Node.child_mem_preorder isReceiver
    have before : receiver.stop ≤ property.start :=
      inOrder.members callee calleeBelow isMember receiver isReceiver property
        isProperty (role_of_child? receiverFound) (role_of_child? propertyFound)
    obtain ⟨inside, baseInside, inTurn⟩ := chainedHypothesis
      (calleeInOrder.of_mem receiverBelow)
      ((callsInTurn.of_mem calleeBelow).of_mem receiverBelow)
    have calleeInside := inOrder.nested.inside calleeBelow
    have receiverInside := calleeInOrder.nested.inside receiverBelow
    have propertyInside :=
      calleeInOrder.nested.inside (Node.child_mem_preorder isProperty)
    have propertyForward :=
      (calleeInOrder.nested.of_mem (Node.child_mem_preorder isProperty)).forward
    refine ⟨fun link isLink => ?_, by omega, ?_⟩
    · rcases List.mem_append.1 isLink with earlier | last
      · obtain ⟨linkInTurn, below, behind⟩ := inside link earlier
        exact ⟨linkInTurn, Node.mem_preorder_of_child isCallee
          (Node.mem_preorder_of_child isReceiver below), behind⟩
      · rw [List.mem_singleton.1 last]
        have parentheses {arguments : Node}
            (found : node.child? .arguments = some arguments) :
            property.stop ≤ arguments.start ∧ arguments.stop ≤ node.stop := by
          have isArguments := Node.child?_mem found
          have behind : callee.stop ≤ arguments.start :=
            callsInTurn node node.self_mem_preorder isCall callee isCallee
              arguments isArguments (role_of_child? calleeFound)
              (role_of_child? found)
          have argumentsInside :=
            inOrder.nested.inside (Node.child_mem_preorder isArguments)
          omega
        refine ⟨⟨propertyForward, fun arguments => parentheses,
          fun argument isArgument => ?_⟩, node.self_mem_preorder, ?_⟩
        · show property.stop ≤ argument.start ∧ argument.stop ≤ node.stop
          obtain ⟨arguments, found, isPart⟩ := exists_of_callArguments isArgument
          have places := parentheses found
          have isArguments := Node.child_mem_preorder (Node.child?_mem found)
          have argumentInside := (inOrder.nested.of_mem isArguments).inside
            (Node.child_mem_preorder (arguments.parts_subset isPart))
          omega
        · show base.stop ≤ property.start
          omega
    · refine List.pairwise_append.2 ⟨inTurn, List.pairwise_singleton _ _, ?_⟩
      intro link earlier last isLast
      rw [List.mem_singleton.1 isLast]
      have stop := ((calleeInOrder.of_mem receiverBelow).nested.inside
        (inside link earlier).2.1).2
      exact Nat.le_trans stop before

/-- The calls of statements in turn stand in turn. -/
theorem calls_inTurn_of_holdsLinks
    {statements : List Node}
    {parts : List (List Link)}
    (each : List.Forall₂ (HoldsLinks m localName) statements parts)
    (inOrder : ∀ statement ∈ statements,
      statement.InOrder ∧ statement.CallsInTurn)
    (inTurn : statements.Pairwise fun a b => a.stop ≤ b.start) :
    (∀ link ∈ parts.flatten, link.InTurn ∧
        ∃ statement ∈ statements, link.call ∈ statement.preorder ∧
          statement.start ≤ link.property.start) ∧
      parts.flatten.Pairwise fun a b => a.call.stop ≤ b.property.start := by
  induction each with
  | nil => exact ⟨fun _ isLink => absurd isLink List.not_mem_nil, .nil⟩
  | @cons statement links statements parts holds each eachHypothesis =>
    rw [List.pairwise_cons] at inTurn
    obtain ⟨laterInside, laterInTurn⟩ := eachHypothesis
      (fun other member => inOrder other (List.mem_cons_of_mem _ member)) inTurn.2
    obtain ⟨expression, binding, base, found, chained⟩ := holds
    have below := (statementExpression_eq_some found).1
    obtain ⟨whole, calls⟩ := inOrder statement List.mem_cons_self
    have within := whole.nested.inside below
    have started := (chained.inTurn (whole.of_mem below)).1
    obtain ⟨inside, -, chainInTurn⟩ :=
      chained.calls_inTurn (whole.of_mem below) (calls.of_mem below)
    rw [List.flatten_cons]
    constructor
    · intro link isLink
      rcases List.mem_append.1 isLink with own | later
      · obtain ⟨linkInTurn, callBelow, -⟩ := inside link own
        have start := (started link own).1
        exact ⟨linkInTurn, statement, List.mem_cons_self,
          Node.mem_preorder_trans below callBelow, by omega⟩
      · obtain ⟨linkInTurn, other, isOther, places⟩ := laterInside link later
        exact ⟨linkInTurn, other, List.mem_cons_of_mem _ isOther, places⟩
    · refine List.pairwise_append.2 ⟨chainInTurn, laterInTurn, ?_⟩
      intro link own other later
      have callInside := whole.nested.inside
        (Node.mem_preorder_trans below (inside link own).2.1)
      obtain ⟨-, next, isNext, -, start⟩ := laterInside other later
      have before := inTurn.1 next isNext
      omega

/-- The calls of a fragment stand one behind the other, all behind its root. -/
theorem Fragment.Threaded.calls_inTurn
    (threaded : fragment.Threaded m localName)
    (inOrder : m.tree.InOrder)
    (callsInTurn : m.tree.CallsInTurn)
    (sublist : fragment.statements.Sublist m.statements) :
    (∀ link ∈ fragment.links, link.InTurn ∧
        fragment.root.stop ≤ link.property.start ∧
        ∃ statement ∈ fragment.statements, link.call ∈ statement.preorder) ∧
      fragment.links.Pairwise fun a b => a.call.stop ≤ b.property.start := by
  obtain ⟨expression, firstLinks, parts, found, chained, each, linksEq⟩ := threaded
  have below {statement : Node} (isStatement : statement ∈ fragment.statements) :
      statement ∈ m.tree.preorder :=
    Module.statement_mem_preorder (sublist.subset isStatement)
  have ordered (statement : Node) (isStatement : statement ∈ fragment.statements) :
      statement.InOrder ∧ statement.CallsInTurn :=
    ⟨inOrder.of_mem (below isStatement), callsInTurn.of_mem (below isStatement)⟩
  have statementsInTurn : fragment.statements.Pairwise fun a b =>
      a.stop ≤ b.start :=
    ((inOrder.nested m.tree m.tree.self_mem_preorder).inTurn.sublist
      m.tree.parts_sublist).sublist sublist
  have holds : List.Forall₂ (HoldsLinks m localName) fragment.statements
      (firstLinks :: parts) := by
    refine .cons ⟨expression, _, _, found, chained⟩ (each.imp ?_)
    rintro statement links ⟨later, name, laterFound, -, -, laterChained⟩
    exact ⟨later, _, name, laterFound, laterChained⟩
  obtain ⟨inside, inTurn⟩ := calls_inTurn_of_holdsLinks holds ordered statementsInTurn
  rw [List.flatten_cons, ← linksEq] at inside inTurn
  refine ⟨fun link isLink => ?_, List.pairwise_map.1 inTurn⟩
  have isBare : link.bare ∈ fragment.links.map Link.bare :=
    List.mem_map_of_mem isLink
  obtain ⟨⟨forward, parentheses, arguments⟩, own, isOwn, callBelow, -⟩ :=
    inside link.bare isBare
  refine ⟨⟨forward, parentheses, arguments⟩, ?_, own, isOwn, callBelow⟩
  -- the root stands in the first statement, in front of the links of its chain
  -- and of everything in the statements behind it
  have isFirst : fragment.first ∈ fragment.statements := List.mem_cons_self
  obtain ⟨firstOrder, firstCalls⟩ := ordered fragment.first isFirst
  have expressionBelow := (statementExpression_eq_some found).1
  obtain ⟨ownInside, rootInside, -⟩ := chained.calls_inTurn
    (firstOrder.of_mem expressionBelow) (firstCalls.of_mem expressionBelow)
  rw [linksEq] at isBare
  rcases List.mem_append.1 isBare with isOwn | isLater
  · exact (ownInside link.bare isOwn).2.2
  · have later : List.Forall₂ (HoldsLinks m localName) fragment.later parts := by
      cases holds
      assumption
    have laterInTurn := List.pairwise_cons.1 statementsInTurn
    obtain ⟨laterInside, -⟩ := calls_inTurn_of_holdsLinks later
      (fun statement isStatement =>
        ordered statement (List.mem_cons_of_mem _ isStatement)) laterInTurn.2
    obtain ⟨-, statement, isStatement, -, start⟩ := laterInside link.bare isLater
    have before := laterInTurn.1 statement isStatement
    have firstInside := firstOrder.nested.inside expressionBelow
    have start : statement.start ≤ link.property.start := start
    omega

/-! ## Comments between parentheses -/

/-- A comment stands between the parentheses of the link at an index. -/
def Fragment.InParentheses
    (fragment : Fragment)
    (index : Nat)
    (comment : Node) : Prop :=
  comment.kind = .comment ∧
    ∃ link arguments, fragment.links[index]? = some link ∧
      link.parentheses? = some arguments ∧ comment ∈ arguments.preorder

/-- A node stands in an argument of the link at an index. -/
def Fragment.InArgument
    (fragment : Fragment)
    (index : Nat)
    (node : Node) : Prop :=
  ∃ link argument, fragment.links[index]? = some link ∧
    argument ∈ link.arguments ∧ node ∈ argument.preorder

/-- A comment is one of the link at an index, and of no other. -/
def Fragment.BelongsTo
    (fragment : Fragment)
    (index : Nat)
    (comment : Node) : Prop :=
  ∃ link, fragment.links[index]? = some link ∧
    ∀ other otherLink, fragment.links[other]? = some otherLink →
      (comment ∈ otherLink.comments ↔ other = index)

/-- A comment is part of an argument of the link at an index, and the comment of no
link, or it is a comment of this link alone. -/
def Fragment.StaysWith
    (fragment : Fragment)
    (index : Nat)
    (comment : Node) : Prop :=
  (fragment.InArgument index comment ∧
      ∀ link ∈ fragment.links, comment ∉ link.comments) ∨
    fragment.BelongsTo index comment

/-- The link that the comments between the parentheses of the one at an index
belong to: the next one, if there is one. -/
def Fragment.nextIndex (fragment : Fragment) (index : Nat) : Nat :=
  min (index + 1) (fragment.links.length - 1)

section Parentheses

variable
  {index : Nat}
  {comment : Node}
  (annotated : fragment.Annotated m localName)
  (inOrder : m.tree.InOrder)
  (callsInTurn : m.tree.CallsInTurn)

include annotated inOrder callsInTurn

/-- A comment between parentheses lies in an argument of their link, or it is free
and the next link is the one that it belongs to. -/
theorem inArgument_or_owner
    (inside : fragment.InParentheses index comment) :
    (fragment.InArgument index comment ∧ ¬ fragment.IsFree comment) ∨
      (¬ fragment.InArgument index comment ∧ fragment.IsFree comment ∧
        IsOwner fragment.links comment (fragment.nextIndex index)) := by
  obtain ⟨threaded, stands, commented, -, wellFormed⟩ := annotated
  obtain ⟨isComment, link, arguments, here, found, below⟩ := inside
  obtain ⟨placed, callsInTurn⟩ :=
    threaded.calls_inTurn inOrder callsInTurn stands.statements
  have namesInTurn := threaded.inTurn inOrder stands.statements wellFormed
  rw [List.pairwise_iff_getElem] at callsInTurn namesInTurn
  have isLink := List.mem_of_getElem? here
  obtain ⟨linkInTurn, rootBefore, statement, isStatement, callBelow⟩ :=
    placed link isLink
  have argumentsBelow := Node.mem_preorder_trans callBelow
    (Node.child_mem_preorder (Node.child?_mem found))
  have inStatement := Node.mem_preorder_trans argumentsBelow below
  have forward :=
    commented.forward comment (stands.inTree isStatement inStatement) isComment
  have inTree := stands.inTree isStatement argumentsBelow
  have commentInside := (commented.nested.of_mem inTree).inside below
  have parentheses := linkInTurn.parentheses arguments found
  have named := linkInTurn.forward
  obtain ⟨inRange, rfl⟩ := List.getElem?_eq_some_iff.1 here
  by_cases inArgument : fragment.InArgument index comment
  · refine .inl ⟨inArgument, fun free => free.outside (.inl ?_)⟩
    obtain ⟨other, argument, otherHere, isArgument, inside⟩ := inArgument
    exact ⟨other, List.mem_of_getElem? otherHere, argument, isArgument, inside⟩
  · refine .inr ⟨inArgument, ⟨isComment, ⟨statement, isStatement, inStatement⟩, ?_⟩,
      ?_⟩
    · rintro (⟨other, isOther, argument, isArgument, inside⟩ |
        ⟨rootArguments, rootFound, inside⟩)
      · have argumentInTree := stands.arguments other isOther argument isArgument
        have argumentInside := (commented.nested.of_mem argumentInTree).inside inside
        have places := (placed other isOther).1.arguments argument isArgument
        have otherForward := (placed other isOther).1.forward
        obtain ⟨place, otherRange, rfl⟩ := List.mem_iff_getElem.1 isOther
        rcases Nat.lt_trichotomy place index with before | rfl | behind
        · have := callsInTurn place index otherRange inRange before
          omega
        · exact inArgument ⟨_, argument, here, isArgument, inside⟩
        · have := callsInTurn index place inRange otherRange behind
          omega
      · have rootInside := commented.nested.of_mem stands.root
        have := rootInside.inside (Node.mem_preorder_trans
          (Node.child_mem_preorder (Node.child?_mem rootFound)) inside)
        omega
    · have namedBefore {other : Link} (isEarlier : other ∈ fragment.links.take
          (index + 1)) : other.property.start ≤ comment.start := by
        obtain ⟨place, before, rfl⟩ := List.mem_take_iff_getElem.1 isEarlier
        rcases Nat.lt_or_ge place index with earlier | own
        · have := namesInTurn place index (by omega) inRange earlier
          omega
        · have same : place = index := by omega
          subst same
          omega
      by_cases isLast : index + 1 = fragment.links.length
      · have nextEq : fragment.nextIndex index = index := by
          unfold Fragment.nextIndex
          omega
        rw [nextEq]
        refine .last (fun other isOther => namedBefore ?_) isLast
        rwa [isLast, List.take_length]
      · have nextRange : index + 1 < fragment.links.length := by omega
        have nextEq : fragment.nextIndex index = index + 1 := by
          unfold Fragment.nextIndex
          omega
        rw [nextEq]
        have behind := callsInTurn index (index + 1) inRange nextRange (by omega)
        exact .following (List.getElem?_eq_getElem nextRange) (by omega)
          fun other isEarlier => namedBefore isEarlier

omit inOrder callsInTurn in
/-- A free comment is one of the link that owns it. -/
theorem belongsTo_of_isOwner
    (linked : fragment.links ≠ [])
    (isFree : fragment.IsFree comment)
    (isOwner : IsOwner fragment.links comment index) :
    fragment.BelongsTo index comment := by
  obtain ⟨own, link, here, owns, only⟩ := (annotated.attached.ownsComments linked
    annotated.stands annotated.commented).owned comment isFree
  have same : own = index := by
    rw [← (isOwner_iff linked).1 owns, (isOwner_iff linked).1 isOwner]
  rw [same] at here only
  exact ⟨link, here, only⟩

/-- A comment between parentheses stays with their link if it lies in an argument
or the link is the last one; otherwise it is a comment of the next link. -/
theorem comments_of_parentheses
    (inside : fragment.InParentheses index comment) :
    (fragment.StaysWith index comment ↔
        fragment.InArgument index comment ∨ index + 1 = fragment.links.length) ∧
      (¬ fragment.InArgument index comment →
        fragment.BelongsTo (fragment.nextIndex index) comment) := by
  obtain ⟨-, link, -, here, -⟩ := id inside
  have inRange := (List.getElem?_eq_some_iff.1 here).1
  have linked : fragment.links ≠ [] := by
    intro none
    rw [none] at here
    contradiction
  rcases inArgument_or_owner annotated inOrder callsInTurn inside with
    ⟨inArgument, notFree⟩ | ⟨outside, isFree, isOwner⟩
  · refine ⟨⟨fun _ => .inl inArgument, fun _ => .inl ⟨inArgument, ?_⟩⟩,
      fun outside => absurd inArgument outside⟩
    intro other isOther isIts
    exact notFree ((annotated.attached.ownsComments linked annotated.stands
      annotated.commented).free other isOther comment isIts)
  · have belongs := belongsTo_of_isOwner annotated linked isFree isOwner
    refine ⟨⟨?_, ?_⟩, fun _ => belongs⟩
    · rintro (⟨inArgument, -⟩ | ⟨own, ownHere, only⟩)
      · exact absurd inArgument outside
      · obtain ⟨next, nextHere, onlyNext⟩ := belongs
        have isOwn := (only index own ownHere).2 rfl
        have same := (onlyNext index own ownHere).1 isOwn
        unfold Fragment.nextIndex at same
        exact .inr (by omega)
    · rintro (inArgument | isLast)
      · exact absurd inArgument outside
      · have same : fragment.nextIndex index = index := by
          unfold Fragment.nextIndex
          omega
        rw [same] at belongs
        exact .inr belongs

end Parentheses

end Chain

namespace Migration

open Syntax Chain Story Fallible

variable {m : Module} {fragment : Fragment}

/-- A comment stands above the export that a link leads to: that of the story it
adds, or else the default export. -/
def IsAboveExportOf
    (fragment : Fragment)
    (metadata : Metadata)
    (stories : List NamedEntry)
    (link : Link)
    (comment : Node) : Prop :=
  if link.isAdd then
    ∃ (place : Nat) (story : NamedEntry), fragment.adds[place]? = some link ∧
      stories[place]? = some story ∧ comment ∈ story.entry.comments
  else
    comment ∈ metadata.comments

/-- The comments of a link stand above its export. -/
theorem isAboveExportOf_of_mem
    {metadata : Metadata}
    {stories : List NamedEntry}
    {link : Link}
    {comment : Node}
    (exported : CommentsExported m fragment metadata stories)
    (isLink : link ∈ fragment.links)
    (isIts : comment ∈ link.comments) :
    IsAboveExportOf fragment metadata stories link comment := by
  unfold IsAboveExportOf
  split
  · rename_i isAdd
    have adds : link ∈ fragment.adds := List.mem_filter.2 ⟨isLink, isAdd⟩
    obtain ⟨place, inRange, here⟩ := List.mem_iff_getElem.1 adds
    obtain ⟨sameLength, each⟩ := List.forall₂_iff_get.1 exported.each
    have storyRange : place < stories.length := sameLength ▸ inRange
    refine ⟨place, stories[place], List.getElem?_eq_some_iff.2 ⟨inRange, here⟩,
      List.getElem?_eq_getElem storyRange, ?_⟩
    have same := (each place inRange storyRange).2
    simp only [List.get_eq_getElem, here] at same
    rw [same]
    exact isIts
  · rename_i notAdd
    exact (exported.shared comment).2 ⟨link, isLink, by simpa using notAdd, isIts⟩

/-- A comment between the parentheses of a link's call, in whichever statement,
stays with that link exactly if it lies in one of the arguments or there is no
further link.  The code that the fragment is replaced by has no comments of
arguments above its exports, and every other comment between parentheses stands
once above the export of the next link, or of the last one if there is none. -/
theorem commentsInParentheses_of_supported
    {dialect : Dialect}
    {source : String}
    {registration : Registration}
    {located : Located}
    {index : Nat}
    {comment : Node}
    (parsed : Module.parse? dialect source = some m)
    (found : locate m registration = .ok located)
    (supported : fragment ∈ located.fragments)
    (inside : fragment.InParentheses index comment) :
    ((fragment.StaysWith index comment ↔
        fragment.InArgument index comment ∨ index + 1 = fragment.links.length) ∧
      (¬ fragment.InArgument index comment →
        fragment.BelongsTo (fragment.nextIndex index) comment)) ∧
      ∀ options code count,
        generated options m located fragment = .ok (code, count) →
          ∃ metadata stories,
            code = (Newline.ofText m.source.toList).spread
              (CodePiece.join (codePieces options m metadata stories)) ∧
            CommentsExported m fragment metadata stories ∧
            (fragment.InArgument index comment →
              comment ∉ metadata.comments ++ stories.flatMap (·.entry.comments)) ∧
            (¬ fragment.InArgument index comment →
              ∃ next, fragment.links[fragment.nextIndex index]? = some next ∧
                IsAboveExportOf fragment metadata stories next comment) := by
  have annotated := annotated_of_supported parsed found supported
  have inOrder := Module.inOrder_of_parse? parsed
  have callsInTurn := Module.callsInTurn_of_parse? parsed
  have attached := comments_of_parentheses annotated inOrder callsInTurn inside
  refine ⟨attached, fun options code count made => ?_⟩
  obtain ⟨-, link, -, here, -⟩ := id inside
  have linked : fragment.links ≠ [] := by
    intro none
    rw [none] at here
    contradiction
  obtain ⟨metadata, stories, codeEq, exported⟩ :=
    exported_of_annotated annotated linked made
  refine ⟨metadata, stories, codeEq, exported, fun inArgument isAbove => ?_,
    fun outside => ?_⟩
  · rcases inArgument_or_owner annotated inOrder callsInTurn inside with
      ⟨-, notFree⟩ | ⟨outside, -⟩
    · exact notFree ((exported.free comment).1 isAbove)
    · exact outside inArgument
  · obtain ⟨next, nextHere, only⟩ := attached.2 outside
    exact ⟨next, nextHere, isAboveExportOf_of_mem exported
      (List.mem_of_getElem? nextHere) ((only _ next nextHere).2 rfl)⟩

set_option maxRecDepth 100000 in
/-- A comment in an argument and one behind it, in the first of two statements. -/
theorem commentsInParentheses_two_statements :
    ∃ m located fragment inner behind code,
      Module.parse? .javascript
        ("const s = storiesOf('A', module).add('x', () => /*a*/ 1 /*b*/);\n" ++
          "s.addDecorator(d);\n") = some m ∧
      locate m {} = .ok located ∧ fragment ∈ located.fragments ∧
      fragment.links.length = 2 ∧
      generated {} m located fragment = .ok (code, 1) ∧
      m.text inner = "/*a*/" ∧ fragment.StaysWith 0 inner ∧
      m.text behind = "/*b*/" ∧ fragment.BelongsTo 1 behind ∧
      ∃ metadata stories,
        code = (Newline.ofText m.source.toList).spread
          (CodePiece.join (codePieces {} m metadata stories)) ∧
        CommentsExported m fragment metadata stories ∧
        ∃ next, fragment.links[1]? = some next ∧
          IsAboveExportOf fragment metadata stories next behind := by
  generalize sourceEq :
    "const s = storiesOf('A', module).add('x', () => /*a*/ 1 /*b*/);\n" ++
      "s.addDecorator(d);\n" = source
  have checked : (Module.parse? .javascript source).any (fun m =>
      (locate m {}).toOption.any fun located =>
        located.fragments.any fun fragment =>
          fragment.links.length == 2 &&
          (fragment.links[1]?.any fun link => link.comments.map m.text == ["/*b*/"]) &&
          (fragment.links[0]?.any fun link =>
            (link.parentheses?.any fun arguments =>
              ["/*a*/", "/*b*/"].all fun text => arguments.preorder.any fun node =>
                node.kind == .comment && m.text node == text) &&
            link.arguments.all fun argument => argument.preorder.all fun node =>
              m.text node != "/*b*/") &&
          (generated {} m located fragment).toOption.any fun made =>
            made.2 == 1) = true := by
    rw [← sourceEq]
    decide +kernel
  obtain ⟨m, parsed, checked⟩ := (Option.any_eq_true _ _).1 checked
  obtain ⟨located, found, checked⟩ := any_toOption.1 checked
  obtain ⟨fragment, supported, checked⟩ := List.any_eq_true.1 checked
  rw [Bool.and_eq_true, any_toOption] at checked
  simp only [Bool.and_eq_true, beq_iff_eq, Option.any_eq_true] at checked
  obtain ⟨⟨⟨two, next, nextHere, texts⟩, link, here, checked⟩, ⟨code, count⟩, made,
    one⟩ := checked
  subst one
  obtain ⟨⟨arguments, isArguments, checked⟩, noneBehind⟩ := checked
  have exists_comment {text : String} (isText : text ∈ ["/*a*/", "/*b*/"]) :
      ∃ comment, m.text comment = text ∧ fragment.InParentheses 0 comment := by
    have found := List.all_eq_true.1 checked text isText
    obtain ⟨comment, below, found⟩ := List.any_eq_true.1 found
    rw [Bool.and_eq_true, beq_iff_eq, beq_iff_eq] at found
    exact ⟨comment, found.2, found.1, link, arguments, here, isArguments, below⟩
  obtain ⟨inner, innerText, innerInside⟩ := exists_comment List.mem_cons_self
  obtain ⟨behind, behindText, behindInside⟩ :=
    exists_comment (List.mem_cons_of_mem _ List.mem_cons_self)
  have nextEq : fragment.nextIndex 0 = 1 := by
    unfold Fragment.nextIndex
    omega
  have outside : ¬ fragment.InArgument 0 behind := by
    rintro ⟨other, argument, otherHere, isArgument, inArgument⟩
    rw [here, Option.some.injEq] at otherHere
    subst otherHere
    have noText := List.all_eq_true.1
      (List.all_eq_true.1 noneBehind argument isArgument) behind inArgument
    rw [behindText] at noText
    contradiction
  obtain ⟨⟨stays, belongs⟩, -⟩ :=
    commentsInParentheses_of_supported parsed found supported innerInside
  obtain ⟨⟨-, behindBelongs⟩, exported⟩ :=
    commentsInParentheses_of_supported parsed found supported behindInside
  rw [nextEq] at belongs behindBelongs
  have innerStays : fragment.StaysWith 0 inner := by
    refine stays.2 (.inl (by_contra fun innerOutside => ?_))
    obtain ⟨own, ownHere, only⟩ := belongs innerOutside
    have isNext : inner ∈ next.comments := (only 1 next nextHere).2 rfl
    have inTexts : m.text inner ∈ next.comments.map m.text :=
      List.mem_map_of_mem isNext
    rw [texts, innerText] at inTexts
    contradiction
  obtain ⟨metadata, stories, codeEq, isExported, -, above⟩ := exported {} code 1 made
  rw [nextEq] at above
  exact ⟨m, located, fragment, inner, behind, code, parsed, found, supported, two, made,
    innerText, innerStays, behindText, behindBelongs outside, metadata, stories, codeEq,
    isExported, above outside⟩

set_option maxRecDepth 100000 in
/-- A comment in front of what one story renders comes out above the export of the
next story. -/
theorem commentsInParentheses_reach_next_export :
    ∃ m located fragment comment,
      Module.parse? .javascript
        "storiesOf('A', module).add('a', /* c */ f).add('b', g);\n" = some m ∧
      locate m {} = .ok located ∧ fragment ∈ located.fragments ∧
      fragment.InParentheses 0 comment ∧ m.text comment = "/* c */" ∧
      generated {} m located fragment = .ok
        ("export default \x7b\n  title: 'A',\n\x7d;\n\nexport const a = f;\n\n" ++
          "/* c */\nexport const b = g;", 2) ∧
      ¬ fragment.StaysWith 0 comment ∧ fragment.BelongsTo 1 comment := by
  generalize sourceEq :
    "storiesOf('A', module).add('a', /* c */ f).add('b', g);\n" = source
  generalize codeEq :
    "export default \x7b\n  title: 'A',\n\x7d;\n\nexport const a = f;\n\n" ++
      "/* c */\nexport const b = g;" = expected
  have checked : (Module.parse? .javascript source).any (fun m =>
      (locate m {}).toOption.any fun located =>
        located.fragments.any fun fragment =>
          fragment.links.length == 2 &&
          (fragment.links[0]?.any fun link =>
            (link.parentheses?.any fun arguments => arguments.preorder.any fun node =>
              node.kind == .comment && m.text node == "/* c */") &&
            link.arguments.all fun argument => argument.preorder.all fun node =>
              node.kind != .comment) &&
          (generated {} m located fragment).toOption.any fun made =>
            made == (expected, 2)) = true := by
    rw [← sourceEq, ← codeEq]
    decide +kernel
  obtain ⟨m, parsed, checked⟩ := (Option.any_eq_true _ _).1 checked
  obtain ⟨located, found, checked⟩ := any_toOption.1 checked
  obtain ⟨fragment, supported, checked⟩ := List.any_eq_true.1 checked
  rw [Bool.and_eq_true, Bool.and_eq_true, beq_iff_eq, any_toOption,
    Option.any_eq_true] at checked
  obtain ⟨⟨two, link, here, checked⟩, made, isMade, same⟩ := checked
  rw [beq_iff_eq] at same
  subst same
  rw [Bool.and_eq_true, Option.any_eq_true, List.all_eq_true] at checked
  obtain ⟨⟨arguments, isArguments, checked⟩, noComments⟩ := checked
  obtain ⟨comment, below, checked⟩ := List.any_eq_true.1 checked
  rw [Bool.and_eq_true, beq_iff_eq, beq_iff_eq] at checked
  obtain ⟨isComment, text⟩ := checked
  have inside : fragment.InParentheses 0 comment :=
    ⟨isComment, link, arguments, here, isArguments, below⟩
  have outside : ¬ fragment.InArgument 0 comment := by
    rintro ⟨other, argument, otherHere, isArgument, inArgument⟩
    rw [here, Option.some.injEq] at otherHere
    subst otherHere
    have none := List.all_eq_true.1 (noComments argument isArgument) comment inArgument
    rw [isComment] at none
    contradiction
  obtain ⟨stays, belongs⟩ := comments_of_parentheses
    (annotated_of_supported parsed found supported)
    (Module.inOrder_of_parse? parsed) (Module.callsInTurn_of_parse? parsed) inside
  have nextEq : fragment.nextIndex 0 = 1 := by
    unfold Fragment.nextIndex
    omega
  refine ⟨m, located, fragment, comment, parsed, found, supported, inside, text,
    isMade, fun stays' => ?_, nextEq ▸ belongs outside⟩
  rcases stays.1 stays' with inArgument | isLast
  · exact outside inArgument
  · omega

end Migration
end StoryMigration
