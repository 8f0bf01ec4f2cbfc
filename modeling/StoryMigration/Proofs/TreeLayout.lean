import StoryMigration.Proofs.LaidStatement
import StoryMigration.Proofs.ReadStatements

/-!
# The tree of a source is laid over it

The statements of a source are laid one behind the other, each of them from a
character that is no blank up to a token or a comment; the comments between
them and inside them are put into the tree without moving a node.  So the tree
of every source that parses is orderly and readable, and of its nodes only a
comment in the manner of HTML and the line for the shell can end inside a line
ending.
-/

namespace StoryMigration
namespace Syntax

open Reading

/-! ## Comments among nodes -/

namespace Node

/-- Comments that can be put into a tree: leaves, one behind the other, each of
them before or behind every node of the tree or inside it. -/
structure Among (comments : List Node) (node : Node) : Prop where
  leaf : ∀ comment ∈ comments, comment.children = []
  forward : ∀ comment ∈ comments, comment.start < comment.stop
  inTurn : comments.Pairwise fun a b => a.stop ≤ b.start
  clear : ∀ comment ∈ comments, ∀ inner ∈ node.preorder, Clear comment inner

/-- Some of the comments can be put into a part of the tree. -/
theorem Among.part
    {comments fewer : List Node}
    {node inner : Node}
    (among : Among comments node)
    (isSome : fewer.Sublist comments)
    (below : inner ∈ node.preorder) :
    Among fewer inner where
  leaf comment member := among.leaf comment (isSome.subset member)
  forward comment member := among.forward comment (isSome.subset member)
  inTurn := among.inTurn.sublist isSome
  clear comment isComment other inInner :=
    among.clear comment (isSome.subset isComment) other
      (mem_preorder_trans below inInner)

/-- Nodes that lie apart from all of a list in turn are merged with it in
turn. -/
theorem inTurn_mergeByStart
    {nodes others : List Node}
    (forward : ∀ node ∈ nodes, node.start ≤ node.stop)
    (inTurn : nodes.Pairwise fun a b => a.stop ≤ b.start)
    (othersForward : ∀ other ∈ others, other.start < other.stop)
    (othersInTurn : others.Pairwise fun a b => a.stop ≤ b.start)
    (apart : ∀ other ∈ others, ∀ node ∈ nodes,
      other.stop ≤ node.start ∨ node.stop ≤ other.start) :
    (mergeByStart nodes others).Pairwise fun a b => a.stop ≤ b.start := by
  induction nodes generalizing others with
  | nil =>
    rw [mergeByStart]
    exact othersInTurn
  | cons node nodes nodesHypothesis =>
    obtain ⟨nodeFirst, nodesInTurn⟩ := List.pairwise_cons.1 inTurn
    have nodeForward := forward node List.mem_cons_self
    have front {other : Node}
        (member : other ∈ others.takeWhile (·.start < node.start)) :
        other ∈ others ∧ other.stop ≤ node.start := by
      have isOther := (List.takeWhile_sublist _).subset member
      have before : other.start < node.start := by
        simpa using List.mem_takeWhile_imp member
      refine ⟨isOther, ?_⟩
      rcases apart other isOther node List.mem_cons_self with first | behind
      · exact first
      · omega
    have back {other : Node}
        (member : other ∈ others.dropWhile (·.start < node.start)) :
        other ∈ others ∧ node.stop ≤ other.start := by
      have isOther := (List.dropWhile_sublist _).subset member
      have otherForward := othersForward other isOther
      have reached : node.start ≤ other.start := by
        have stops := List.head?_dropWhile_not
          (fun other : Node => decide (other.start < node.start)) others
        have isSome := List.dropWhile_sublist (l := others)
          fun other : Node => decide (other.start < node.start)
        have rest := othersInTurn.sublist isSome
        cases behind : others.dropWhile fun other =>
            decide (other.start < node.start) with
        | nil =>
          rw [behind] at member
          contradiction
        | cons first later =>
          rw [behind] at member stops rest isSome
          have firstReached : ¬ first.start < node.start := by simpa using stops
          have firstForward :=
            othersForward first (isSome.subset List.mem_cons_self)
          rcases List.mem_cons.1 member with rfl | isLater
          · omega
          · have := (List.pairwise_cons.1 rest).1 other isLater
            omega
      refine ⟨isOther, ?_⟩
      rcases apart other isOther node List.mem_cons_self with first | behind
      · omega
      · exact behind
    rw [mergeByStart]
    refine List.pairwise_append.2 ⟨othersInTurn.sublist (List.takeWhile_sublist _),
      List.pairwise_cons.2 ⟨?_, ?_⟩, ?_⟩
    · intro other member
      rcases mem_mergeByStart member with isNode | isOther
      · exact nodeFirst other isNode
      · exact (back isOther).2
    · refine nodesHypothesis (fun other isNode => forward other
        (List.mem_cons_of_mem _ isNode)) nodesInTurn ?_ ?_ ?_
      · exact fun other member => othersForward other (back member).1
      · exact othersInTurn.sublist (List.dropWhile_sublist _)
      · exact fun other member inner isNode =>
          apart other (back member).1 inner (List.mem_cons_of_mem _ isNode)
    · intro other member behind isBehind
      obtain ⟨isOther, before⟩ := front member
      rcases List.mem_cons.1 isBehind with rfl | isBehind
      · exact before
      · rcases mem_mergeByStart isBehind with isNode | isLater
        · have := nodeFirst behind isNode
          omega
        · have inOrder := (back isLater).2
          omega

@[simp] theorem start_withComments
    (comments : List Node)
    (node : Node) :
    (node.withComments comments).start = node.start := by
  rw [start, start, span_withComments]

@[simp] theorem stop_withComments
    (comments : List Node)
    (node : Node) :
    (node.withComments comments).stop = node.stop := by
  rw [stop, stop, span_withComments]

theorem map_span_childrenWithComments
    (comments nodes : List Node) :
    (childrenWithComments comments nodes).map span = nodes.map span := by
  induction nodes with
  | nil => rw [childrenWithComments]
  | cons node nodes nodesHypothesis =>
    rw [childrenWithComments, List.map_cons, List.map_cons, nodesHypothesis,
      span_withComments]

@[simp] theorem role_withComments
    (comments : List Node)
    (node : Node) :
    (node.withComments comments).role = node.role := by
  cases node
  rw [withComments]
  rfl

/-- What stands in a tree with comments is one of them, or stands in the tree
without them and has some of them put into it. -/
theorem exists_of_mem_withComments
    {node inner : Node}
    {comments : List Node}
    (leaf : ∀ comment ∈ comments, comment.children = [])
    (member : inner ∈ (node.withComments comments).preorder) :
    inner ∈ comments ∨
      ∃ raw ∈ node.preorder, ∃ inside ⊆ comments,
        inner = raw.withComments inside := by
  induction node using childInduction generalizing comments with
  | step node childHypothesis =>
    rcases mem_preorder.1 member with rfl | ⟨child, isChild, inChild⟩
    · exact .inr ⟨node, node.self_mem_preorder, comments,
        List.Subset.refl _, rfl⟩
    · obtain ⟨kind, role, span, children⟩ := node
      rw [withComments, children_mk] at isChild
      rcases mem_mergeByStart isChild with isNode | isComment
      · obtain ⟨raw, isRaw, rfl⟩ := exists_of_mem_childrenWithComments isNode
        have isGiven : comments.filter raw.covers ⊆ comments :=
          List.filter_sublist.subset
        rcases childHypothesis raw isRaw
          (fun comment isInside => leaf comment (isGiven isInside))
          inChild with isComment | ⟨other, inRaw, inside, isInside, same⟩
        · exact .inl (isGiven isComment)
        · exact .inr ⟨other, mem_preorder_of_child isRaw inRaw, inside,
            List.Subset.trans isInside isGiven, same⟩
      · have isGiven := (List.mem_filter.1 isComment).1
        rcases mem_preorder.1 inChild with rfl | ⟨other, isOther, -⟩
        · exact .inl isGiven
        · rw [leaf child isGiven] at isOther
          contradiction

/-- Comments put into a node come between the children that it has. -/
theorem inTurnAs_withComments
    {first second : Role}
    {node : Node}
    {comments : List Node}
    (noRole : ∀ comment ∈ comments, comment.role = none)
    (inTurn : InTurnAs first second node.children) :
    InTurnAs first second (node.withComments comments).children := by
  obtain ⟨kind, role, span, children⟩ := node
  have ofChild {child : Node} {role : Role}
      (isChild : child ∈ ((mk kind role span children).withComments
        comments).children)
      (isRole : child.role = some role) :
      ∃ raw ∈ children, raw.role = some role ∧ raw.start = child.start ∧
        raw.stop = child.stop := by
    rw [withComments, children_mk] at isChild
    rcases mem_mergeByStart isChild with isNode | isComment
    · obtain ⟨raw, isRaw, rfl⟩ := exists_of_mem_childrenWithComments isNode
      rw [role_withComments] at isRole
      exact ⟨raw, isRaw, isRole, (start_withComments _ raw).symm,
        (stop_withComments _ raw).symm⟩
    · rw [noRole child (List.mem_filter.1 isComment).1] at isRole
      contradiction
  intro front isFront back isBack isFirst isSecond
  obtain ⟨rawFront, isRawFront, isFirst, -, stopEq⟩ := ofChild isFront isFirst
  obtain ⟨rawBack, isRawBack, isSecond, startEq, -⟩ := ofChild isBack isSecond
  rw [← stopEq, ← startEq]
  exact inTurn rawFront isRawFront rawBack isRawBack isFirst isSecond

/-- Comments inside a nested tree leave it nested. -/
theorem nested_withComments
    {node : Node}
    {comments : List Node}
    (nested : node.Nested)
    (among : Among comments node)
    (covered : ∀ comment ∈ comments, node.covers comment = true) :
    (node.withComments comments).Nested := by
  induction node using childInduction generalizing comments with
  | step node childHypothesis =>
    have ordered := nested node node.self_mem_preorder
    obtain ⟨kind, role, span, children⟩ := node
    have childNested {child : Node} (isChild : child ∈ children) : child.Nested :=
      nested.of_mem (child_mem_preorder isChild)
    have outside {comment : Node}
        (isOutside : comment ∈ comments.filter fun comment =>
          !(children.any (·.covers comment))) :
        comment ∈ comments ∧ ∀ child ∈ children,
          comment.stop ≤ child.start ∨ child.stop ≤ comment.start := by
      obtain ⟨isComment, noneCovers⟩ := List.mem_filter.1 isOutside
      refine ⟨isComment, fun child isChild => ?_⟩
      have notCovered : child.covers comment = false := by
        simp only [Bool.not_eq_true', List.any_eq_false] at noneCovers
        simpa using noneCovers child isChild
      rcases among.clear comment isComment child
        (child_mem_preorder isChild) with before | behind | inside
      · exact .inl before
      · exact .inr behind
      · simp [covers, inside] at notCovered
    rw [withComments]
    intro inner member
    rcases mem_preorder.1 member with rfl | ⟨child, isChild, inChild⟩
    · refine ⟨ordered.forward, fun child isChild => ?_, ?_⟩
      · rcases mem_mergeByStart isChild with isNode | isComment
        · obtain ⟨raw, isRaw, rfl⟩ := exists_of_mem_childrenWithComments isNode
          rw [start_withComments, stop_withComments]
          exact ordered.inside raw isRaw
        · have isCovered := covered child (outside isComment).1
          rw [covers, Bool.and_eq_true, decide_eq_true_eq, decide_eq_true_eq]
            at isCovered
          exact isCovered
      · refine inTurn_mergeByStart ?_ ?_ ?_ ?_ ?_
        · intro node isNode
          obtain ⟨raw, isRaw, rfl⟩ := exists_of_mem_childrenWithComments isNode
          rw [start_withComments, stop_withComments]
          exact (childNested isRaw).forward
        · have onSpans : ((childrenWithComments comments children).map
              Node.span).Pairwise fun a b => a.stop ≤ b.start := by
            rw [map_span_childrenWithComments]
            exact List.pairwise_map.2 ordered.inTurn
          exact List.pairwise_map.1 onSpans
        · exact fun comment isOutside =>
            among.forward comment (outside isOutside).1
        · exact among.inTurn.sublist List.filter_sublist
        · intro comment isOutside node isNode
          obtain ⟨raw, isRaw, rfl⟩ := exists_of_mem_childrenWithComments isNode
          rw [start_withComments, stop_withComments]
          exact (outside isOutside).2 raw isRaw
    · rcases mem_mergeByStart isChild with isNode | isComment
      · obtain ⟨raw, isRaw, rfl⟩ := exists_of_mem_childrenWithComments isNode
        refine childHypothesis raw isRaw (childNested isRaw) ?_ ?_ inner inChild
        · exact among.part List.filter_sublist (child_mem_preorder isRaw)
        · exact fun comment isInside => (List.mem_filter.1 isInside).2
      · have isGiven := (outside isComment).1
        have isLeaf := among.leaf child isGiven
        rcases mem_preorder.1 inChild with rfl | ⟨other, isOther, -⟩
        · refine ⟨Nat.le_of_lt (among.forward inner isGiven), ?_, ?_⟩
          · rw [isLeaf]
            exact fun _ impossible => by contradiction
          · rw [isLeaf]
            exact .nil
        · rw [isLeaf] at isOther
          contradiction

end Node

/-! ## Statements one behind the other -/

variable {dialect : Dialect} {text : List Char}

/-- A node that starts on a character that is no blank and has one on its last
line. -/
def StandsClosed (text : List Char) (node : Node) : Prop :=
  ∃ front body back, text = front ++ body ++ back ∧
    node.start = byteLength front ∧ node.stop = byteLength (front ++ body) ∧
    (∃ c, body.head? = some c ∧ isBlank c = false) ∧
    ∃ before c tail, body = before ++ c :: tail ∧ isBlank c = false ∧ '\n' ∉ tail

/-- A statement that is read behind some nodes is laid behind them. -/
theorem Trail.statement
    {front : List Char}
    {nodes : List Node}
    {cursor next : Cursor}
    {node : Node}
    (trail : Trail text front nodes cursor)
    (read : (grammarFor dialect text).read .statement cursor =
      some (node, next)) :
    (∃ front', Trail text front' (nodes ++ [node]) next) ∧
      StandsClosed text node ∧ cursor.offset ≤ node.start := by
  have startEq := start_of_read read
  obtain ⟨stopEq, -⟩ := (statement_concludes dialect text).keeps read
  obtain ⟨passed, behind⟩ := trail.skipUpTo true cursor.rest.length
  have solid := (cursor.nothing_behind_skip true).1
  have further : cursor.offset ≤ (cursor.skip true).offset := by
    obtain ⟨taken, -, offsetEq⟩ := (Cursor.Leads.skip cursor true).text
    omega
  obtain ⟨depth, depthEq⟩ : ∃ depth, 8 * (text.length + 8) = depth + 1 :=
    ⟨8 * (text.length + 8) - 1, by omega⟩
  rw [grammarFor, depthEq] at read
  have readHere : Grammar.statementRule
      ⟨dialect, Grammar.toDepth dialect depth⟩ (cursor.skip true) =
        some (node, next) :=
    (statementRule_skip _ cursor).symm.trans read
  have laid : Laid text (front ++ passed) false (nodes ++ []) (cursor.skip true) := by
    rw [List.append_nil]
    refine ⟨[], ?_, ?_, fun impossible => by contradiction⟩
    · rw [List.append_nil]
      exact behind
    · exact .of_solid _ solid
  obtain ⟨within, trail', -, closed⟩ :=
    (LaysSome.statementRule (LaysSome.toDepth dialect depth)).keeps laid readHere
  obtain ⟨before, c, tail, withinEq, isSolid, noEnd⟩ := closed rfl
  refine ⟨⟨_, trail'⟩, ⟨front ++ passed, within, next.rest, trail'.stands, ?_, ?_,
    ?_, before, c, tail, withinEq, isSolid, fun member => (noEnd _ member).1 rfl⟩,
    by omega⟩
  · rw [startEq]
    exact behind.offset
  · rw [stopEq]
    exact trail'.offset
  · have restEq : (cursor.skip true).rest = within ++ next.rest := by
      have whole := trail'.stands
      have same : front ++ passed ++ (cursor.skip true).rest =
          front ++ passed ++ (within ++ next.rest) := by
        rw [← List.append_assoc, ← whole]
        exact behind.stands.symm
      exact List.append_cancel_left same
    rw [restEq] at solid
    cases within with
    | nil =>
      rw [eq_comm, List.append_eq_nil_iff] at withinEq
      cases withinEq.2
    | cons d within =>
      refine ⟨d, rfl, ?_⟩
      by_contra isBlank
      rw [List.cons_append, List.takeWhile_cons_of_pos (by simpa using isBlank)]
        at solid
      contradiction

theorem Trail.statements
    {front : List Char}
    {nodes read : List Node}
    {cursor last : Cursor}
    (trail : Trail text front nodes cursor)
    (each : ReadsEach ((grammarFor dialect text).read .statement) cursor read
      last) :
    (∃ front', Trail text front' (nodes ++ read) last) ∧
      ∀ node ∈ read, StandsClosed text node ∧ cursor.offset ≤ node.start := by
  induction each generalizing front nodes with
  | nil cursor =>
    refine ⟨⟨front, ?_⟩, by simp⟩
    rwa [List.append_nil]
  | cons readFirst rest restHypothesis =>
    obtain ⟨⟨_, next⟩, closed, behind⟩ := trail.statement readFirst
    obtain ⟨⟨front', whole⟩, all⟩ := restHypothesis next
    rw [List.append_assoc] at whole
    refine ⟨⟨front', whole⟩, fun node member => ?_⟩
    rcases List.mem_cons.1 member with rfl | member
    · exact ⟨closed, behind⟩
    · obtain ⟨nodeClosed, nodeBehind⟩ := all node member
      obtain ⟨taken, -, offsetEq⟩ :=
        ((statement_regular dialect text).leads readFirst).text
      exact ⟨nodeClosed, by omega⟩

/-! ## What was noted earlier -/

section Behind

variable {α : Type} {reading : Reading α} {values : List α}

theorem ReadsEach.of_behind
    (regular : Regular reading)
    {cursor last : Cursor}
    {earlier : List Node}
    (each : ReadsEach reading (cursor.behind earlier) values last) :
    ∃ stop, last = stop.behind earlier ∧
      ReadsEach reading cursor values stop := by
  generalize placeEq : cursor.behind earlier = place at each
  induction each generalizing cursor with
  | nil place => exact ⟨cursor, placeEq.symm, .nil cursor⟩
  | cons read rest restHypothesis =>
    rw [← placeEq, regular.blind] at read
    obtain ⟨⟨value, middle⟩, readHere, same⟩ := Option.map_eq_some_iff.1 read
    cases same
    obtain ⟨stop, lastEq, each⟩ := restHypothesis rfl
    exact ⟨stop, lastEq, .cons readHere each⟩

theorem ReadsEach.behind
    (regular : Regular reading)
    {cursor last : Cursor}
    (earlier : List Node)
    (each : ReadsEach reading cursor values last) :
    ReadsEach reading (cursor.behind earlier) values (last.behind earlier) := by
  induction each with
  | nil cursor => exact .nil _
  | cons read rest restHypothesis =>
    refine .cons ?_ restHypothesis
    rw [regular.blind, read]
    rfl

end Behind

/-! ## The whole text -/

theorem Trail.ofText (text : List Char) : Trail text [] [] (Cursor.ofText text) where
  stands := rfl
  offset := rfl
  firm := by simp
  inTurn := .nil
  behind := by simp
  notes := by simp [Cursor.ofText]
  notesInTurn := .nil
  clear := by simp

/-- The line for the shell goes up to the end of its line. -/
theorem Trail.isNote_shell
    {front : List Char}
    {nodes : List Node}
    {cursor : Cursor}
    (trail : Trail text front nodes cursor)
    (marked : (after? "#!".toList cursor.rest).isSome = true) :
    IsNote text (.leaf .hashBang ⟨cursor.offset,
      (cursor.advance (Lexeme.run (· != '\n') cursor.rest)).offset⟩) where
  leaf := rfl
  noRole := rfl
  ofKind := .inr (.inr rfl)
  place := by
    have moved := trail.advance (Lexeme.run (· != '\n') cursor.rest)
    refine ⟨front, _, _, moved.stands, trail.offset, moved.offset, ?_,
      by simp [Node.leaf], fun _ => ?_⟩
    · obtain ⟨rest, starts⟩ := Option.isSome_iff_exists.1 marked
      rw [Lexeme.eq_append_of_after? starts]
      exact ⟨'#', rfl, by decide⟩
    · rw [Lexeme.take_run]
      intro member
      have isOther := List.mem_takeWhile_imp member
      contradiction

/-- The children of a program that is read up to the end of a text: statements,
perhaps behind a line for the shell, which is laid like a comment. -/
def ProgramLaid (text : List Char) (children : List Node) (last : Cursor) : Prop :=
  ∃ (shell : Option Node) (nodes earlier : List Node) (stop : Cursor),
    children = shell.toList ++ nodes ∧ last = stop.behind earlier ∧
    stop.rest = [] ∧
    (∀ line ∈ shell, line.kind = .hashBang) ∧
    Trail text text nodes (stop.behind (shell.toList ++ earlier)) ∧
    ∀ node ∈ nodes, StandsClosed text node ∧
      ∀ line ∈ shell, line.stop ≤ node.start

/-- Statements that are read up to the end of the text are laid behind the
notes before them, of which some are kept apart while they are read. -/
theorem Trail.program
    {front : List Char}
    {shell : Option Node}
    {earlier : List Node}
    {start last : Cursor}
    {program : Node}
    (trail : Trail text front [] (start.behind (shell.toList ++ earlier)))
    (lines : ∀ line ∈ shell, line.kind = .hashBang ∧ line.stop ≤ start.offset)
    (read : ((many ((grammarFor dialect text).read .statement)
      (start.behind earlier)).bind fun result =>
        (finished result.2).bind fun ended =>
          build .program (shell.toList ++ result.1) ended.2) = some (program, last)) :
    ProgramLaid text program.children last := by
  have regular := statement_regular dialect text
  obtain ⟨⟨nodes, middle⟩, readNodes, readEnd⟩ := Option.bind_eq_some_iff.1 read
  obtain ⟨⟨_, ended⟩, ending, built⟩ := Option.bind_eq_some_iff.1 readEnd
  obtain ⟨rfl, atEnd⟩ := atEnd_of_finished ending
  cases built
  obtain ⟨stop, rfl, bare⟩ := (readsEach_of_many readNodes).of_behind regular
  obtain ⟨⟨reached, laid⟩, closed⟩ :=
    trail.statements (bare.behind regular (shell.toList ++ earlier))
  obtain ⟨passed, skipped⟩ := laid.skipUpTo true stop.rest.length
  have ended : Trail text (reached ++ passed) nodes
      ((stop.skip true).behind (shell.toList ++ earlier)) := by
    rw [← stop.skip_behind true]
    exact skipped
  have empty : (stop.skip true).rest = [] := by
    rw [stop.skip_behind] at atEnd
    exact atEnd
  have wholeEq : text = reached ++ passed := by
    have stands : text = reached ++ passed ++ (stop.skip true).rest := ended.stands
    rwa [empty, List.append_nil] at stands
  rw [← wholeEq] at ended
  refine ⟨shell, nodes, earlier, stop.skip true, rfl, stop.skip_behind true _,
    empty, fun line isLine => (lines line isLine).1, ended, fun node member => ?_⟩
  obtain ⟨nodeClosed, behind⟩ := closed node member
  exact ⟨nodeClosed, fun line isLine => Nat.le_trans (lines line isLine).2 behind⟩

theorem yields_programRule
    (g : Grammar) :
    Yields (programRule g) fun node _ => node.kind = .program := by
  have behind (shell : Option Node) :
      Yields (do
        let statements ← many (g.read .statement)
        finished
        build .program (shell.toList ++ statements))
          fun node _ => node.kind = .program :=
    .bind fun _ => .bind fun _ => ⟨fun read => by cases read; rfl⟩
  unfold programRule
  refine .bind fun _ => .get_bind fun _ => ?_
  dsimp only
  split
  · exact .bind fun _ => behind _
  · exact .bind fun _ => behind _

theorem programLaid_of_read
    {program : Node}
    {last : Cursor}
    (read : programRule (grammarFor dialect text) (Cursor.ofText text) =
      some (program, last)) :
    ProgramLaid text program.children last := by
  obtain ⟨front, opened⟩ := (Trail.ofText text).skipUpTo true text.length
  generalize openedEq : (Cursor.ofText text).skip true = cursor
  have same : (Cursor.ofText text).skipUpTo true text.length = cursor := openedEq
  have gapEq : gap true (Cursor.ofText text) = some ((), cursor) := by
    rw [← openedEq]
    rfl
  rw [same] at opened
  simp only [programRule] at read
  rw [bind_apply, gapEq, Option.bind_some, get_bind_apply] at read
  by_cases marked : (after? "#!".toList cursor.rest).isSome = true
  · rw [if_pos marked] at read
    have passed := opened.pass (opened.isNote_shell marked)
    generalize placeEq : Lexeme.run (· != '\n') cursor.rest = count at read passed
    let line : Node :=
      .leaf .hashBang ⟨cursor.offset, (cursor.advance count).offset⟩
    let start : Cursor := { cursor.advance count with remarks := [] }
    have noted : Trail text _ []
        (start.behind ((some line).toList ++ cursor.remarks)) := passed
    refine noted.program (fun _ isLine => ?_) read
    rw [← Option.some.inj isLine]
    exact ⟨rfl, Nat.le_refl _⟩
  · rw [if_neg marked] at read
    let start : Cursor := { cursor with remarks := [] }
    have noted : Trail text _ []
        (start.behind ((none : Option Node).toList ++ cursor.remarks)) := opened
    exact noted.program (by simp) read

/-! ## The tree of a text -/

/-- A node between the characters of a text that splits no line ending, apart
from the end of a comment in the manner of HTML or of the line for the shell.
A name covers no blank, a literal starts with its quotation mark, and text
between tags stands directly between them. -/
structure Stands (text : List Char) (node : Node) : Prop where
  start : IsSharp text node.start
  between : IsBetween text node.stop
  stop : node.kind ≠ .htmlComment → node.kind ≠ .hashBang →
    IsSharp text node.stop
  name : form node.kind = .name → Unbroken text node
  quoted : form node.kind = .quoted → OpensQuote text node
  inset : form node.kind = .inset → IsInset text node

/-- A tree laid over a whole text.  Its comments are leaves of some length. -/
structure Overlaid (text : List Char) (tree : Node) : Prop where
  nested : tree.Nested
  notes : ∀ inner ∈ tree.preorder, inner.kind = .comment →
    inner.children = [] ∧ inner.start < inner.stop
  members : ∀ inner ∈ tree.preorder, form inner.kind = .member →
    MemberInTurn inner.children
  calls : ∀ inner ∈ tree.preorder, form inner.kind = .call →
    InTurnAs .callee .arguments inner.children
  whole : tree.stop = byteLength text
  stands : ∀ inner ∈ tree.preorder, Stands text inner
  closed : ∀ child ∈ tree.children, child.kind ≠ .comment → StandsClosed text child

theorem IsNote.stands
    {note : Node}
    (isNote : IsNote text note) :
    Stands text note := by
  obtain ⟨front, body, back, textEq, startEq, stopEq, ⟨c, head, solid⟩, ends, -⟩ :=
    isNote.place
  have nonempty : body ≠ [] := by
    rintro rfl
    contradiction
  have isNoted : form note.kind = .note ∨ form note.kind = .plain := by
    rcases isNote.ofKind with kindEq | kindEq | kindEq <;>
      · rw [kindEq]
        decide
  have otherForm {other : Form} (noNote : other ≠ .note) (noPlain : other ≠ .plain)
      (isOther : form note.kind = other) : False := by
    rcases isNoted with isNote | isPlain
    · exact noNote (isOther.symm.trans isNote)
    · exact noPlain (isOther.symm.trans isPlain)
  refine ⟨?_, ⟨_, _, textEq, stopEq⟩, fun noHtml noShell =>
    ⟨_, _, textEq, stopEq, .of_getLast? ?_⟩,
    fun isName => (otherForm (by decide) (by decide) isName).elim,
    fun isQuoted => (otherForm (by decide) (by decide) isQuoted).elim,
    fun isInset => (otherForm (by decide) (by decide) isInset).elim⟩
  · rw [List.append_assoc] at textEq
    refine ⟨_, _, textEq, startEq, .of_head? ?_⟩
    rw [List.head?_append_of_ne_nil _ nonempty, head]
    rintro feed
    cases feed
    contradiction
  · rw [List.getLast?_append_of_ne_nil _ nonempty]
    rcases isNote.ofKind with isComment | isHtml | isShell
    · exact ends isComment
    · exact absurd isHtml noHtml
    · exact absurd isShell noShell

theorem IsNote.forward
    {note : Node}
    (isNote : IsNote text note) :
    note.start < note.stop := by
  obtain ⟨front, body, back, -, startEq, stopEq, ⟨c, head, -⟩, -, -⟩ :=
    isNote.place
  obtain ⟨rest, rfl⟩ := List.head?_eq_some_iff.1 head
  have positive := c.utf8Size_pos
  rw [startEq, stopEq, byteLength_append, ← List.singleton_append,
    byteLength_append, byteLength_singleton]
  omega

/-- A note that is not a comment of the usual kind spans no line. -/
theorem IsNote.standsClosed
    {note : Node}
    (isNote : IsNote text note)
    (other : note.kind ≠ .comment) :
    StandsClosed text note := by
  obtain ⟨front, body, back, textEq, startEq, stopEq, ⟨c, head, solid⟩, -, line⟩ :=
    isNote.place
  obtain ⟨rest, rfl⟩ := List.head?_eq_some_iff.1 head
  refine ⟨front, c :: rest, back, textEq, startEq, stopEq, ⟨c, head, solid⟩,
    [], c, rest, rfl, solid, fun member => ?_⟩
  exact line other (List.mem_cons_of_mem _ member)

theorem Sound.stands
    {node : Node}
    (sound : Sound text node) :
    Stands text node :=
  ⟨sound.start, sound.stop.isBetween, fun _ _ => sound.stop, sound.name,
    sound.quoted, sound.inset⟩

section Program

variable
  {shell : Option Node}
  {nodes earlier : List Node}
  {stop : Cursor}
  {kind : Kind}
  {role : Option Role}
  (trail : Trail text text nodes (stop.behind (shell.toList ++ earlier)))

include trail

theorem Trail.shell_place
    {line : Node}
    (isLine : line ∈ shell) :
    (IsNote text line ∧ line.stop ≤ stop.offset) ∧
      (∀ comment ∈ stop.remarks, line.stop ≤ comment.start) ∧
      ∀ comment ∈ earlier, comment.stop ≤ line.start := by
  have isShell : line ∈ shell.toList := Option.mem_toList.2 isLine
  obtain ⟨-, inner, behind⟩ := List.pairwise_append.1 trail.notesInTurn
  obtain ⟨-, -, before⟩ := List.pairwise_append.1 inner
  refine ⟨trail.notes line ?_, ?_, ?_⟩
  · exact List.mem_append_right _ (List.mem_append_left _ isShell)
  · exact fun comment isComment =>
      behind comment isComment line (List.mem_append_left _ isShell)
  · exact fun comment isComment => before line isShell comment isComment

theorem Trail.notes_of_program
    {comment : Node}
    (isComment : comment ∈ stop.remarks ++ earlier) :
    comment ∈ (stop.behind (shell.toList ++ earlier)).remarks ∧
      IsNote text comment ∧ comment.stop ≤ stop.offset := by
  have isNoted : comment ∈ stop.remarks ++ (shell.toList ++ earlier) := by
    rcases List.mem_append.1 isComment with isLater | isEarlier
    · exact List.mem_append_left _ isLater
    · exact List.mem_append_right _ (List.mem_append_right _ isEarlier)
  exact ⟨isNoted, trail.notes comment isNoted⟩

/-- The program is nested, and each of its nodes stands in the text. -/
theorem Trail.nested_program
    (lines : ∀ node ∈ nodes, ∀ line ∈ shell, line.stop ≤ node.start) :
    (Node.mk kind role ⟨0, stop.offset⟩ (shell.toList ++ nodes)).Nested := by
  intro inner member
  rcases Node.mem_preorder.1 member with rfl | ⟨child, isChild, inChild⟩
  · refine ⟨Nat.zero_le _, fun child isChild => ⟨Nat.zero_le _, ?_⟩, ?_⟩
    · rcases List.mem_append.1 isChild with isLine | isNode
      · exact (trail.shell_place (Option.mem_toList.1 isLine)).1.2
      · exact trail.behind child isNode
    · refine List.pairwise_append.2 ⟨?_, trail.inTurn, ?_⟩
      · cases shell with
        | none => exact .nil
        | some line => exact List.pairwise_singleton _ _
      · exact fun line isLine node isNode =>
          lines node isNode line (Option.mem_toList.1 isLine)
  · rcases List.mem_append.1 isChild with isLine | isNode
    · obtain ⟨⟨isNote, -⟩, -⟩ := trail.shell_place (Option.mem_toList.1 isLine)
      rcases Node.mem_preorder.1 inChild with rfl | ⟨other, isOther, -⟩
      · refine ⟨Nat.le_of_lt isNote.forward, ?_, ?_⟩
        · rw [isNote.leaf]
          exact fun _ impossible => by contradiction
        · rw [isNote.leaf]
          exact .nil
      · rw [isNote.leaf] at isOther
        contradiction
    · exact (trail.firm child isNode).nested inner inChild

/-- Below a program stand the line for the shell and nodes that are sound. -/
theorem Trail.below_program
    {inner : Node}
    (member : inner ∈ (Node.mk kind role ⟨0, stop.offset⟩
      (shell.toList ++ nodes)).preorder) :
    inner = .mk kind role ⟨0, stop.offset⟩ (shell.toList ++ nodes) ∨
      (inner ∈ shell ∧ IsNote text inner) ∨ Sound text inner := by
  rcases Node.mem_preorder.1 member with rfl | ⟨child, isChild, inChild⟩
  · exact .inl rfl
  · rcases List.mem_append.1 isChild with isLine | isNode
    · have isShell := Option.mem_toList.1 isLine
      obtain ⟨⟨isNote, -⟩, -⟩ := trail.shell_place isShell
      rcases Node.mem_preorder.1 inChild with rfl | ⟨other, isOther, -⟩
      · exact .inr (.inl ⟨isShell, isNote⟩)
      · rw [isNote.leaf] at isOther
        contradiction
    · exact .inr (.inr (trail.firm child isNode inner inChild))

/-- In a program the parts of two roles stand in turn if they do in every sound
node of a form. -/
theorem Trail.inTurnAs_program
    {first second : Role}
    {other : Form}
    (sound : ∀ {node}, Sound text node → form node.kind = other →
      InTurnAs first second node.children)
    {inner : Node}
    (noProgram : form kind ≠ other)
    (member : inner ∈ (Node.mk kind role ⟨0, stop.offset⟩
      (shell.toList ++ nodes)).preorder)
    (isOther : form inner.kind = other) :
    InTurnAs first second inner.children := by
  rcases trail.below_program member with rfl | ⟨-, isNote⟩ | isSound
  · exact absurd isOther noProgram
  · rw [isNote.leaf]
    exact fun front impossible => by contradiction
  · exact sound isSound isOther

/-- Without those noted on the way, there are no comments in a program. -/
theorem Trail.noNote_program
    {inner : Node}
    (plain : form kind = .plain)
    (lines : ∀ line ∈ shell, line.kind = .hashBang)
    (member : inner ∈ (Node.mk kind role ⟨0, stop.offset⟩
      (shell.toList ++ nodes)).preorder) :
    inner.kind ≠ .comment := by
  rintro isComment
  have isNote : form inner.kind = .note := by rw [isComment]; rfl
  rcases trail.below_program member with rfl | ⟨isLine, -⟩ | isSound
  · exact absurd (plain.symm.trans isNote) (by decide)
  · exact absurd ((lines inner isLine).symm.trans isComment) (by decide)
  · exact isSound.noNote isNote

/-- Every node of a program stands in the text. -/
theorem Trail.stands_program
    {inner : Node}
    (plain : form kind = .plain)
    (member : inner ∈ (Node.mk kind role ⟨0, stop.offset⟩
      (shell.toList ++ nodes)).preorder) :
    Stands text inner := by
  rcases trail.below_program member with rfl | ⟨-, isNote⟩ | isSound
  · have start : IsSharp text 0 := ⟨[], text, rfl, rfl, .of_getLast? (by simp)⟩
    have stop : IsSharp text stop.offset :=
      ⟨text, [], (List.append_nil _).symm, trail.offset, .of_head? (by simp)⟩
    exact ⟨start, stop.isBetween, fun _ _ => stop,
      fun isName => absurd (plain.symm.trans isName) (by decide),
      fun isQuoted => absurd (plain.symm.trans isQuoted) (by decide),
      fun isInset => absurd (plain.symm.trans isInset) (by decide)⟩
  · exact isNote.stands
  · exact isSound.stands

/-- The comments noted on the way can be put into the program. -/
theorem Trail.among_program :
    Node.Among (stop.remarks ++ earlier).reverse
      (Node.mk kind role ⟨0, stop.offset⟩ (shell.toList ++ nodes)) where
  leaf comment isComment :=
    (trail.notes_of_program (List.mem_reverse.1 isComment)).2.1.leaf
  forward comment isComment :=
    (trail.notes_of_program (List.mem_reverse.1 isComment)).2.1.forward
  inTurn := by
    have fewer : (stop.remarks ++ earlier).Sublist
        (stop.remarks ++ (shell.toList ++ earlier)) :=
      (List.Sublist.refl _).append (List.sublist_append_right _ _)
    exact List.pairwise_reverse.2 (trail.notesInTurn.sublist fewer)
  clear comment isComment inner member := by
    rw [List.mem_reverse] at isComment
    obtain ⟨isNoted, isNote, before⟩ := trail.notes_of_program isComment
    rcases Node.mem_preorder.1 member with rfl | ⟨child, isChild, inChild⟩
    · exact .inr (.inr ⟨Nat.zero_le _, before⟩)
    · rcases List.mem_append.1 isChild with isLine | isNode
      · obtain ⟨⟨lineNote, -⟩, later, earlier⟩ :=
          trail.shell_place (Option.mem_toList.1 isLine)
        rcases Node.mem_preorder.1 inChild with rfl | ⟨other, isOther, -⟩
        · rcases List.mem_append.1 isComment with isLater | isEarlier
          · exact .inr (.inl (later comment isLater))
          · exact .inl (earlier comment isEarlier)
        · rw [lineNote.leaf] at isOther
          contradiction
      · exact trail.clear child isNode inner inChild comment isNoted

end Program

theorem Stands.congr
    {node other : Node}
    (stands : Stands text node)
    (kindEq : node.kind = other.kind)
    (spanEq : node.span = other.span) :
    Stands text other := by
  obtain ⟨start, between, stop, name, quoted, inset⟩ := stands
  have startEq : node.start = other.start := congrArg Span.start spanEq
  have stopEq : node.stop = other.stop := congrArg Span.stop spanEq
  unfold OpensQuote at quoted
  unfold IsInset at inset
  rw [startEq] at start quoted inset
  rw [stopEq] at between stop quoted inset
  rw [kindEq] at stop name quoted inset
  exact ⟨start, between, stop,
    fun isName => (name isName).congr startEq stopEq, quoted, inset⟩

theorem StandsClosed.congr
    {node other : Node}
    (closed : StandsClosed text node)
    (spanEq : node.span = other.span) :
    StandsClosed text other := by
  unfold StandsClosed Node.start Node.stop at closed ⊢
  rwa [spanEq] at closed

/-- A text that parses is overlaid by its tree. -/
theorem overlaid_of_parse?
    {tree : Node}
    (parsed : parse? dialect text = some tree) :
    Overlaid text tree := by
  obtain ⟨program, last, read, rfl⟩ :=
    (parse?_eq_some_iff (noNul_of_parse? parsed)).1 parsed
  obtain ⟨shell, nodes, earlier, stop, childrenEq, rfl, empty, lines, trail,
    closed⟩ := programLaid_of_read read
  have isNote {comment : Node}
      (isComment : comment ∈ (stop.remarks ++ earlier).reverse) :
      IsNote text comment ∧ comment.stop ≤ stop.offset :=
    (trail.notes_of_program (List.mem_reverse.1 isComment)).2
  show Overlaid text ((Node.mk program.kind program.role ⟨0, stop.offset⟩
    program.children).withComments (stop.remarks ++ earlier).reverse)
  rw [childrenEq]
  have plain : form program.kind = .plain := by
    rw [(yields_programRule _).keeps read]
    rfl
  have inTurnAs {first second : Role} {other : Form} {inner : Node}
      (sound : ∀ {node}, Sound text node → form node.kind = other →
        InTurnAs first second node.children)
      (noProgram : form program.kind ≠ other)
      (member : inner ∈ ((Node.mk program.kind program.role ⟨0, stop.offset⟩
        (shell.toList ++ nodes)).withComments
          (stop.remarks ++ earlier).reverse).preorder)
      (isOther : form inner.kind = other) :
      InTurnAs first second inner.children := by
    rcases Node.exists_of_mem_withComments
      (fun comment isComment => (isNote isComment).1.leaf) member with
      isComment | ⟨raw, isRaw, inside, isInside, rfl⟩
    · rw [(isNote isComment).1.leaf]
      exact fun front impossible => by contradiction
    · rw [Node.kind_withComments] at isOther
      exact Node.inTurnAs_withComments
        (fun comment isComment => (isNote (isInside isComment)).1.noRole)
        (trail.inTurnAs_program sound noProgram isRaw isOther)
  refine ⟨?_, ?_, ?_, ?_, ?_, ?_, ?_⟩
  · refine Node.nested_withComments ?_ trail.among_program ?_
    · exact trail.nested_program fun node isNode => (closed node isNode).2
    · intro comment isComment
      rw [Node.covers, Bool.and_eq_true, decide_eq_true_eq, decide_eq_true_eq]
      exact ⟨Nat.zero_le _, (isNote isComment).2⟩
  · intro inner member isComment
    rcases Node.exists_of_mem_withComments
      (fun comment isComment => (isNote isComment).1.leaf) member with
      isNoted | ⟨raw, isRaw, inside, -, rfl⟩
    · exact ⟨(isNote isNoted).1.leaf, (isNote isNoted).1.forward⟩
    · rw [Node.kind_withComments] at isComment
      exact absurd isComment (trail.noNote_program plain lines isRaw)
  · intro inner member isMember
    exact inTurnAs Sound.member (by rw [plain]; decide) member isMember
  · intro inner member isCall
    exact inTurnAs Sound.call (by rw [plain]; decide) member isCall
  · rw [Node.stop_withComments]
    exact trail.offset
  · intro inner member
    rcases Node.exists_of_mem_withComments
      (fun comment isComment => (isNote isComment).1.leaf) member with
      isComment | ⟨raw, isRaw, inside, -, rfl⟩
    · exact (isNote isComment).1.stands
    · exact (trail.stands_program plain isRaw).congr
        (Node.kind_withComments _ _).symm (Node.span_withComments _ _).symm
  · intro child isChild other
    rw [Node.withComments, Node.children_mk] at isChild
    rcases Node.mem_mergeByStart isChild with isNode | isComment
    · obtain ⟨raw, isRaw, rfl⟩ := Node.exists_of_mem_childrenWithComments isNode
      refine StandsClosed.congr ?_ (Node.span_withComments _ raw).symm
      rcases List.mem_append.1 isRaw with isLine | isStatement
      · rw [Node.kind_withComments] at other
        exact (trail.shell_place (Option.mem_toList.1 isLine)).1.1.standsClosed other
      · exact (closed raw isStatement).1
    · exact (isNote (List.mem_filter.1 isComment).1).1.standsClosed other

end Syntax
end StoryMigration
