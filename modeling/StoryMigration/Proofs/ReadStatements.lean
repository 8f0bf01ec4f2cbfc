import StoryMigration.Proofs.ConvertedStatements
import StoryMigration.Proofs.DefaultExport
import StoryMigration.Proofs.ExportNames

/-!
# Where the statements of a module are read

Every top-level statement of a parsed module is a node that the statement rule
has read from some place of the text, with the comments inside it put in.  So
what is known of the rule is known of the statements, and a statement whose
text starts with `export default` makes the default export.
-/

namespace StoryMigration
namespace Syntax

open Reading

namespace Node

/-! ## Nodes among comments -/

theorem mem_mergeByStart
    {nodes others : List Node}
    {node : Node}
    (member : node ∈ mergeByStart nodes others) :
    node ∈ nodes ∨ node ∈ others := by
  induction nodes generalizing others with
  | nil =>
    rw [mergeByStart] at member
    exact .inr member
  | cons first nodes nodesHypothesis =>
    rw [mergeByStart, List.mem_append, List.mem_cons] at member
    rcases member with before | rfl | behind
    · exact .inr ((List.takeWhile_sublist _).subset before)
    · exact .inl List.mem_cons_self
    · rcases nodesHypothesis behind with isNode | isOther
      · exact .inl (List.mem_cons_of_mem _ isNode)
      · exact .inr ((List.dropWhile_sublist _).subset isOther)

theorem mem_mergeByStart_left
    {nodes : List Node}
    {node : Node}
    (others : List Node)
    (member : node ∈ nodes) :
    node ∈ mergeByStart nodes others := by
  induction nodes generalizing others with
  | nil => contradiction
  | cons first nodes nodesHypothesis =>
    rw [mergeByStart, List.mem_append, List.mem_cons]
    rcases List.mem_cons.1 member with rfl | member
    · exact .inr (.inl rfl)
    · exact .inr (.inr (nodesHypothesis _ member))

theorem exists_of_mem_childrenWithComments
    {comments nodes : List Node}
    {node : Node}
    (member : node ∈ childrenWithComments comments nodes) :
    ∃ raw ∈ nodes, node = raw.withComments (comments.filter raw.covers) := by
  induction nodes with
  | nil =>
    rw [childrenWithComments] at member
    contradiction
  | cons first nodes nodesHypothesis =>
    rw [childrenWithComments, List.mem_cons] at member
    rcases member with rfl | member
    · exact ⟨first, List.mem_cons_self, rfl⟩
    · obtain ⟨raw, isRaw, same⟩ := nodesHypothesis member
      exact ⟨raw, List.mem_cons_of_mem _ isRaw, same⟩

theorem exists_mem_childrenWithComments
    (comments : List Node)
    {nodes : List Node}
    {raw : Node}
    (member : raw ∈ nodes) :
    ∃ inside, raw.withComments inside ∈ childrenWithComments comments nodes := by
  induction nodes with
  | nil => contradiction
  | cons first nodes nodesHypothesis =>
    rw [childrenWithComments]
    rcases List.mem_cons.1 member with rfl | member
    · exact ⟨_, List.mem_cons_self⟩
    · obtain ⟨inside, isNode⟩ := nodesHypothesis member
      exact ⟨inside, List.mem_cons_of_mem _ isNode⟩

/-- A child of some kind stays one when comments are put in. -/
theorem any_kind_withComments
    {kind : Kind}
    {raw : Node}
    (comments : List Node)
    (holds : raw.children.any (·.kind == kind) = true) :
    (raw.withComments comments).children.any (·.kind == kind) = true := by
  obtain ⟨_, _, _, children⟩ := raw
  obtain ⟨child, isChild, isKind⟩ := List.any_eq_true.1 holds
  rw [children_mk] at isChild
  rw [withComments, children_mk, List.any_eq_true]
  obtain ⟨inside, isNode⟩ :=
    exists_mem_childrenWithComments comments isChild
  refine ⟨_, mem_mergeByStart_left _ isNode, ?_⟩
  rw [kind_withComments]
  exact isKind

end Node

/-! ## Statements and readings -/

variable {dialect : Dialect} {text : List Char}

theorem ReadsEach.exists_read
    {cursor last : Cursor}
    {nodes : List Node}
    {node : Node}
    (stands : cursor.StandsIn text)
    (each : ReadsEach ((grammarFor dialect text).read .statement) cursor nodes
      last)
    (member : node ∈ nodes) :
    ∃ place next, place.StandsIn text ∧
      (grammarFor dialect text).read .statement place = some (node, next) := by
  induction each with
  | nil => contradiction
  | cons read rest restHypothesis =>
    rcases List.mem_cons.1 member with rfl | member
    · exact ⟨_, _, stands, read⟩
    · have regular := statement_regular dialect text
      exact restHypothesis (stands.leads (regular.leads read)) member

/-- A node for code at the top of a tree has been read as a statement. -/
theorem exists_read_of_parse?
    {tree node : Node}
    (parsed : parse? dialect text = some tree)
    (member : node ∈ tree.children)
    (isCode : node.kind.isCode = true) :
    ∃ place next raw comments, place.StandsIn text ∧
      (grammarFor dialect text).read .statement place = some (raw, next) ∧
      node = raw.withComments comments := by
  have noNul := noNul_of_parse? parsed
  obtain ⟨program, last, read, treeEq⟩ := (parse?_eq_some_iff noNul).1 parsed
  obtain ⟨shell, shellNoCode, applied⟩ :=
    programRule_apply (grammarFor dialect text) text
  rw [applied] at read
  obtain ⟨⟨nodes, middle⟩, readNodes, readEnd⟩ := Option.bind_eq_some_iff.1 read
  obtain ⟨⟨_, ended⟩, ending, built⟩ := Option.bind_eq_some_iff.1 readEnd
  obtain ⟨rfl, -⟩ := atEnd_of_finished ending
  cases built
  have each := readsEach_of_many readNodes
  have leads := ((opening_leads text).trans
    (each.leads (statement_regular dialect text))).trans (.skip middle true)
  rw [← treeEq, Node.withComments, Node.children_mk] at member
  rcases Node.mem_mergeByStart member with isNode | isComment
  · obtain ⟨raw, isRaw, same⟩ := Node.exists_of_mem_childrenWithComments isNode
    rw [same, Node.kind_withComments] at isCode
    rcases List.mem_append.1 isRaw with isShell | isStatement
    · rw [shellNoCode raw isShell] at isCode
      contradiction
    · have stands := (Cursor.StandsIn.ofText text).leads (opening_leads text)
      obtain ⟨place, next, placeStands, readRaw⟩ :=
        each.exists_read stands isStatement
      exact ⟨place, next, raw, _, placeStands, readRaw, same⟩
  · rw [leads.noCode node (List.mem_filter.1 isComment).1] at isCode
    contradiction

theorem length_encode
    (chars : List Char) :
    (Utf8.encode chars).length = byteLength chars := by
  induction chars with
  | nil => rfl
  | cons c chars charsHypothesis =>
    rw [← List.singleton_append, byteLength_append, Utf8.encode_append,
      List.length_append, charsHypothesis, byteLength_singleton,
      Utf8.encode_cons, Utf8.encode_nil, List.append_nil,
      String.length_utf8EncodeChar]

/-- What stands behind a cursor is the text behind its offset. -/
theorem Cursor.StandsIn.drop_encode
    {cursor : Cursor}
    (stands : cursor.StandsIn text) :
    (Utf8.encode text).drop cursor.offset = Utf8.encode cursor.rest := by
  obtain ⟨front, textEq, offsetEq⟩ := stands
  rw [textEq, offsetEq, Utf8.encode_append, ← length_encode, List.drop_left]

/-- A text whose bytes start like those of another text starts like it. -/
theorem exists_append_of_encode
    {front chars : List Char}
    {bytes : List UInt8}
    (same : Utf8.encode chars = Utf8.encode front ++ bytes) :
    ∃ back, chars = front ++ back := by
  have read := Utf8.decode?_encode chars
  rw [same, Utf8.decode?_encode_append, Option.map_eq_some_iff] at read
  obtain ⟨back, -, charsEq⟩ := read
  exact ⟨back, charsEq.symm⟩

/-! ## Default exports -/

/-- A statement that starts with `export default` is an export statement that
holds the word `default`. -/
theorem isDefault_of_bytes
    {source : String}
    {m : Module}
    {statement : Node}
    {bytes : List UInt8}
    (parsed : Module.parse? dialect source = some m)
    (member : statement ∈ m.codeStatements)
    (starts : statement.span.bytes m.bytes =
      Utf8.ofString "export default " ++ bytes) :
    statement.kind = .exportStatement ∧
      statement.children.any (·.kind == .defaultToken) = true := by
  obtain ⟨tree, readTree, rfl⟩ := Option.map_eq_some_iff.1 parsed
  obtain ⟨isStatement, isCode⟩ := List.mem_filter.1 member
  obtain ⟨place, next, raw, comments, stands, read, rfl⟩ :=
    exists_read_of_parse? readTree (tree.parts_subset isStatement) isCode
  have skips := stands.leads (.skip place true)
  have startEq := start_of_read read
  -- the first characters behind the place are those of the statement
  have text : ∃ rest,
      (place.skip true).rest = "export default ".toList ++ rest := by
    have dropped := skips.drop_encode
    rw [← startEq] at dropped
    unfold Span.bytes at starts
    rw [Node.span_withComments] at starts
    have whole := List.take_append_drop (raw.span.stop - raw.span.start)
      (Utf8.encode (place.skip true).rest)
    rw [← dropped] at whole
    have found : (Utf8.ofString source).drop raw.span.start =
        (Utf8.encode source.toList).drop raw.start := rfl
    rw [found] at starts
    rw [starts, dropped, List.append_assoc] at whole
    exact exists_append_of_encode whole.symm
  have at_ : (place.skip true).AtDefaultExport := ⟨place.atToken_skip, text⟩
  obtain ⟨depth, depthEq⟩ : ∃ depth,
      8 * (source.toList.length + 8) = depth + 1 :=
    ⟨8 * (source.toList.length + 8) - 1, by omega⟩
  rw [grammarFor, depthEq] at read
  have readHere : Grammar.statementRule ⟨dialect, Grammar.toDepth dialect depth⟩
      (place.skip true) = some (raw, next) :=
    (statementRule_skip _ place).symm.trans read
  obtain ⟨isExport, isDefault⟩ :=
    at_.statementRule_gives dialect depth raw next readHere
  exact ⟨by rw [Node.kind_withComments, isExport],
    Node.any_kind_withComments comments isDefault⟩

end Syntax

namespace Chain

open Syntax Fallible

namespace Exports

theorem hasDefault_foldl_append
    (start : Exports)
    (parts : List Exports) :
    (parts.foldl append start).hasDefault =
      (start.hasDefault || parts.any (·.hasDefault)) := by
  induction parts generalizing start with
  | nil => exact (Bool.or_false _).symm
  | cons part parts partsHypothesis =>
    rw [List.foldl_cons, partsHypothesis, List.any_cons, ← Bool.or_assoc]
    rfl

/-- A default export among its statements is one of the module. -/
theorem hasDefault_of_statement
    {m : Module}
    {statement : Node}
    {exports : Exports}
    (member : statement ∈ m.statements)
    (isExport : statement.kind = .exportStatement)
    (isDefault : statement.children.any (·.kind == .defaultToken) = true)
    (found : ofModule m = .ok exports) :
    exports.hasDefault = true := by
  unfold ofModule at found
  rw [bind_eq_ok] at found
  obtain ⟨parts, partsEq, found⟩ := found
  rw [pure_eq_ok] at found
  have isOwn : statement ∈ m.statements.filter (·.kind == .exportStatement) :=
    List.mem_filter.2 ⟨member, by rw [isExport]; rfl⟩
  obtain ⟨part, isPart, partEq⟩ := exists_of_mapM partsEq isOwn
  have partHas : part.hasDefault = true := by
    unfold ofStatement at partEq
    rw [if_pos isDefault, Except.ok.injEq] at partEq
    rw [← partEq]
  rw [← found, hasDefault_foldl_append, Bool.or_eq_true]
  exact .inr (List.any_eq_true.2 ⟨part, isPart, partHas⟩)

end Exports
end Chain
end StoryMigration
