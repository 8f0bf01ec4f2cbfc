import StoryMigration.Proofs.StatementSequence
import StoryMigration.Syntax.Module

/-!
# The statements of a parsed text

A text parses into top-level statements with given spans exactly if they are
read in turn.  Comments and the line for the shell stand between them: they
are put into the tree without moving a statement.
-/

namespace StoryMigration
namespace Syntax

open Reading

namespace Node

/-! ## Comments put into a tree -/

@[simp] theorem kind_withComments
    (comments : List Node)
    (node : Node) :
    (node.withComments comments).kind = node.kind := by
  cases node
  rw [withComments]
  rfl

@[simp] theorem span_withComments
    (comments : List Node)
    (node : Node) :
    (node.withComments comments).span = node.span := by
  cases node
  rw [withComments]
  rfl

/-- The spans of those nodes that stand for code. -/
def codeSpans (nodes : List Node) : List Span :=
  (nodes.filter (·.kind.isCode)).map span

theorem codeSpans_cons
    (node : Node)
    (nodes : List Node) :
    codeSpans (node :: nodes) =
      (if node.kind.isCode then [node.span] else []) ++ codeSpans nodes := by
  unfold codeSpans
  rw [List.filter_cons]
  split <;> rfl

theorem codeSpans_append
    (front back : List Node) :
    codeSpans (front ++ back) = codeSpans front ++ codeSpans back := by
  unfold codeSpans
  rw [List.filter_append, List.map_append]

/-- Nodes that stand for no code add no span. -/
theorem codeSpans_eq_nil
    {nodes : List Node}
    (noCode : ∀ node ∈ nodes, node.kind.isCode = false) :
    codeSpans nodes = [] := by
  unfold codeSpans
  rw [List.map_eq_nil_iff, List.filter_eq_nil_iff]
  intro node member
  rw [noCode node member]
  exact Bool.false_ne_true

/-- If all nodes stand for code, their spans are those of code. -/
theorem codeSpans_eq_map
    {nodes : List Node}
    (code : ∀ node ∈ nodes, node.kind.isCode = true) :
    codeSpans nodes = nodes.map span := by
  unfold codeSpans
  rw [List.filter_eq_self.2 code]

theorem codeSpans_mergeByStart
    (nodes : List Node)
    {others : List Node}
    (noCode : ∀ node ∈ others, node.kind.isCode = false) :
    codeSpans (mergeByStart nodes others) = codeSpans nodes := by
  induction nodes generalizing others with
  | nil =>
    rw [mergeByStart]
    exact codeSpans_eq_nil noCode
  | cons node nodes nodesHypothesis =>
    have front : ∀ other ∈ others.takeWhile (·.start < node.start),
        other.kind.isCode = false :=
      fun other member =>
        noCode other ((List.takeWhile_sublist _).subset member)
    have back : ∀ other ∈ others.dropWhile (·.start < node.start),
        other.kind.isCode = false :=
      fun other member =>
        noCode other ((List.dropWhile_sublist _).subset member)
    rw [mergeByStart, codeSpans_append, codeSpans_eq_nil front,
      codeSpans_cons, codeSpans_cons, nodesHypothesis back, List.nil_append]

theorem codeSpans_childrenWithComments
    (comments nodes : List Node) :
    codeSpans (childrenWithComments comments nodes) = codeSpans nodes := by
  induction nodes with
  | nil => rw [childrenWithComments]
  | cons node nodes nodesHypothesis =>
    rw [childrenWithComments, codeSpans_cons, codeSpans_cons,
      nodesHypothesis, kind_withComments, span_withComments]

/-- Comments that are put into a tree leave its code in its place. -/
theorem codeSpans_withComments
    {comments : List Node}
    (noCode : ∀ comment ∈ comments, comment.kind.isCode = false)
    (node : Node) :
    codeSpans (node.withComments comments).children =
      codeSpans node.children := by
  obtain ⟨kind, role, span, children⟩ := node
  rw [withComments, children_mk, children_mk,
    codeSpans_mergeByStart _ fun other member =>
      noCode other (List.mem_filter.1 member).1,
    codeSpans_childrenWithComments]

end Node

/-! ## A whole text -/

variable {dialect : Dialect} {text : List Char}

theorem opening_leads
    (text : List Char) :
    (Cursor.ofText text).Leads (opening text) := by
  have skipped := Cursor.Leads.skip (Cursor.ofText text) true
  simp only [opening]
  split
  · exact skipped.trans (.advance _ _)
  · exact skipped

/-- A whole text is read as the statements from its opening on. -/
theorem programRule_apply
    (g : Grammar)
    (text : List Char) :
    ∃ shell : List Node, (∀ node ∈ shell, node.kind.isCode = false) ∧
      programRule g (Cursor.ofText text) =
        (many (g.read .statement) (opening text)).bind fun result =>
          (finished result.2).bind fun ended =>
            build .program (shell ++ result.1) ended.2 := by
  generalize openedEq : (Cursor.ofText text).skip true = opened
  have gapEq : gap true (Cursor.ofText text) = some ((), opened) := by
    rw [← openedEq]
    rfl
  simp only [programRule, opening, openedEq]
  rw [bind_apply, gapEq, Option.bind_some, get_bind_apply]
  by_cases marked : (after? "#!".toList opened.rest).isSome = true
  · refine ⟨[.leaf .hashBang ⟨opened.offset,
      (opened.advance (Lexeme.run (· != '\n') opened.rest)).offset⟩], ?_, ?_⟩
    · intro node member
      rw [List.mem_singleton.1 member]
      rfl
    · rw [if_pos marked, if_pos marked]
      rfl
  · refine ⟨[], by simp, ?_⟩
    rw [if_neg marked, if_neg marked]
    rfl

theorem build_apply
    (kind : Kind)
    (children : List Node)
    (cursor : Cursor) :
    build kind children cursor =
      some (.mk kind none
        ⟨(children.head?.map Node.start).getD cursor.offset, cursor.offset⟩
        children, cursor) := rfl

theorem finished_of_atEnd
    {cursor : Cursor}
    (atEnd : (cursor.skip true).rest = []) :
    finished cursor = some ((), cursor.skip true) := by
  show Reading.require (cursor.skip true).rest.isEmpty (cursor.skip true) = _
  rw [atEnd]
  rfl

theorem atEnd_of_finished
    {cursor next : Cursor}
    {value : Unit}
    (read : finished cursor = some (value, next)) :
    next = cursor.skip true ∧ (cursor.skip true).rest = [] := by
  have required : Reading.require (cursor.skip true).rest.isEmpty
      (cursor.skip true) = some (value, next) := read
  cases restEq : (cursor.skip true).rest with
  | nil =>
    rw [restEq] at required
    cases required
    exact ⟨rfl, rfl⟩
  | cons c rest =>
    rw [restEq] at required
    contradiction

/-- A text with a tree holds no NUL character. -/
theorem noNul_of_parse?
    {tree : Node}
    (parsed : parse? dialect text = some tree) :
    text.contains '\x00' = false := by
  unfold parse? at parsed
  split at parsed
  · contradiction
  · rename_i noNul
    exact Bool.not_eq_true _ ▸ noNul

/-- The tree of a text holds the statements that are read from its opening on,
and comments. -/
theorem parse?_eq_some_iff
    {tree : Node}
    (noNul : text.contains '\x00' = false) :
    parse? dialect text = some tree ↔
      ∃ program last, programRule (grammarFor dialect text)
          (Cursor.ofText text) = some (program, last) ∧
        (Node.mk program.kind program.role ⟨0, last.offset⟩
          program.children).withComments last.remarks.reverse = tree := by
  have parsed : parse? dialect text =
      (programRule (grammarFor dialect text) (Cursor.ofText text)).map
        fun result =>
          (Node.mk result.1.kind result.1.role ⟨0, result.2.offset⟩
            result.1.children).withComments result.2.remarks.reverse := by
    have runEq : (programRule ⟨dialect, Grammar.toDepth dialect
        (8 * (text.length + 8))⟩).run (Cursor.ofText text) =
          programRule (grammarFor dialect text) (Cursor.ofText text) := rfl
    unfold parse?
    rw [noNul, if_neg Bool.false_ne_true]
    simp only
    rw [runEq]
    cases programRule (grammarFor dialect text) (Cursor.ofText text) with
    | none => rfl
    | some result =>
      obtain ⟨⟨kind, role, span, children⟩, last⟩ := result
      rfl
  rw [parsed, Option.map_eq_some_iff, Prod.exists]

theorem ReadsEach.isCode
    {cursor last : Cursor}
    {nodes : List Node}
    (each : ReadsEach ((grammarFor dialect text).read .statement) cursor nodes
      last) :
    ∀ node ∈ nodes, node.kind.isCode = true := by
  induction each with
  | nil cursor => simp
  | cons read rest restHypothesis =>
    intro node member
    rcases List.mem_cons.1 member with rfl | member
    · exact ((statement_concludes dialect text).keeps read).2
    · exact restHypothesis node member

/-- Comments are all that is noted on the way through a text. -/
theorem Cursor.Leads.noCode
    {last : Cursor}
    (leads : (Cursor.ofText text).Leads last) :
    ∀ comment ∈ last.remarks.reverse, comment.kind.isCode = false := by
  obtain ⟨noted, notedEq, isRemark⟩ := leads.noted
  intro comment member
  rw [List.mem_reverse, notedEq] at member
  have isNoted : comment ∈ noted := by
    simpa [Cursor.ofText] using member
  rcases isRemark comment isNoted with isComment | isComment
  · rw [isComment]
    rfl
  · rw [isComment]
    rfl

/-- Statements that end further and further on are no more than the characters
of the text they are read from. -/
theorem ReadsEach.length_le
    {cursor last : Cursor}
    {nodes : List Node}
    (each : ReadsEach ((grammarFor dialect text).read .statement) cursor nodes
      last)
    (ascends : (nodes.map Node.span).Pairwise fun a b => a.stop < b.stop)
    (behind : ∀ node ∈ nodes, cursor.offset < node.stop) :
    nodes.length ≤ cursor.rest.length := by
  induction each with
  | nil cursor => exact Nat.zero_le _
  | cons read rest restHypothesis =>
    rw [List.map_cons, List.pairwise_cons] at ascends
    obtain ⟨stopEq, -⟩ := (statement_concludes dialect text).keeps read
    obtain ⟨taken, restEq, offsetEq⟩ :=
      ((statement_regular dialect text).leads read).text
    have further := behind _ List.mem_cons_self
    have moved : 0 < taken.length := by
      rcases Nat.eq_zero_or_pos taken.length with none | some
      · rw [List.eq_nil_of_length_eq_zero none] at offsetEq
        have zero : byteLength [] = 0 := rfl
        omega
      · exact some
    have fewer := restHypothesis ascends.2 fun node member => by
      rw [← stopEq]
      exact ascends.1 _ (List.mem_map_of_mem member)
    rw [List.length_cons, restEq, List.length_append]
    omega

theorem ReadsEach.length_le_succ
    {cursor last : Cursor}
    {nodes : List Node}
    (each : ReadsEach ((grammarFor dialect text).read .statement) cursor nodes
      last)
    (ascends : (nodes.map Node.span).Pairwise fun a b => a.stop < b.stop) :
    nodes.length ≤ cursor.rest.length + 1 := by
  cases each with
  | nil => exact Nat.zero_le _
  | cons read rest =>
    rw [List.map_cons, List.pairwise_cons] at ascends
    obtain ⟨stopEq, -⟩ := (statement_concludes dialect text).keeps read
    obtain ⟨taken, restEq, -⟩ :=
      ((statement_regular dialect text).leads read).text
    have fewer := rest.length_le ascends.2 fun node member => by
      rw [← stopEq]
      exact ascends.1 _ (List.mem_map_of_mem member)
    rw [List.length_cons, restEq, List.length_append]
    omega

/-- A text parses into top-level statements with some spans exactly if they are
read in turn from its opening on. -/
theorem parse?_codeSpans_iff
    {spans : List Span}
    (noNul : text.contains '\x00' = false)
    (ascends : spans.Pairwise fun a b => a.stop < b.stop) :
    (∃ tree, parse? dialect text = some tree ∧
        Node.codeSpans tree.children = spans) ↔
      ReadInTurn dialect text (opening text).offset spans := by
  obtain ⟨shell, shellNoCode, applied⟩ :=
    programRule_apply (grammarFor dialect text) text
  have stands : (opening text).StandsIn text :=
    (Cursor.StandsIn.ofText text).leads (opening_leads text)
  have regular := statement_regular dialect text
  constructor
  · rintro ⟨tree, parsed, spansEq⟩
    obtain ⟨program, last, read, treeEq⟩ := (parse?_eq_some_iff noNul).1 parsed
    rw [applied] at read
    obtain ⟨⟨nodes, middle⟩, readNodes, readEnd⟩ :=
      Option.bind_eq_some_iff.1 read
    obtain ⟨⟨_, ended⟩, ending, built⟩ := Option.bind_eq_some_iff.1 readEnd
    obtain ⟨rfl, atEnd⟩ := atEnd_of_finished ending
    cases built
    have each := readsEach_of_many readNodes
    have leads := ((opening_leads text).trans (each.leads regular)).trans
      (.skip middle true)
    rw [← treeEq, Node.codeSpans_withComments leads.noCode, Node.children_mk,
      Node.children_mk, Node.codeSpans_append,
      Node.codeSpans_eq_nil shellNoCode, List.nil_append,
      Node.codeSpans_eq_map each.isCode] at spansEq
    rw [← spansEq]
    exact readInTurn_of_readsEach stands each atEnd
  · intro inTurn
    obtain ⟨nodes, last, spansEq, each, atEnd⟩ := exists_readsEach stands inTurn
    have enough : nodes.length ≤ (opening text).rest.length + 1 :=
      each.length_le_succ (spansEq ▸ ascends)
    have readNodes : many ((grammarFor dialect text).read .statement)
        (opening text) = some (nodes, last) :=
      upTo_of_readsEach each (statement_eq_none atEnd) enough
    have leads := ((opening_leads text).trans (each.leads regular)).trans
      (.skip last true)
    have read : programRule (grammarFor dialect text) (Cursor.ofText text) =
        build .program (shell ++ nodes) (last.skip true) := by
      rw [applied, readNodes, Option.bind_some, finished_of_atEnd atEnd,
        Option.bind_some]
    rw [build_apply] at read
    refine ⟨_, (parse?_eq_some_iff noNul).2 ⟨_, _, read, rfl⟩, ?_⟩
    rw [Node.codeSpans_withComments leads.noCode, Node.children_mk,
      Node.children_mk, Node.codeSpans_append,
      Node.codeSpans_eq_nil shellNoCode, List.nil_append,
      Node.codeSpans_eq_map each.isCode, spansEq]

end Syntax
end StoryMigration
