import StoryMigration.Proofs.MovedLiterals
import StoryMigration.Proofs.Removal

/-!
# The bindings of an import

The bindings of an import clause stand in a list with commas between them, those
in braces and perhaps one in front of the braces.  Removing one of them takes the
binding with one of the commas beside it, so that the others stay what they are
and in a list of the same kind.  The braces go with the last binding in them, and
the statement with the last one of all.
-/

namespace StoryMigration

open Syntax Utf8

/-! ## Edits and nodes -/

namespace Edit

/-- The edit replaces all of a node. -/
def Takes (edit : Edit) (node : Node) : Prop :=
  edit.start ≤ node.start ∧ (node.stop : Int) ≤ edit.stop

/-- The edit replaces nothing of a node. -/
def Spares (edit : Edit) (node : Node) : Prop :=
  (node.stop : Int) ≤ edit.start ∨ edit.stop ≤ node.start

instance (edit : Edit) (node : Node) : Decidable (edit.Takes node) :=
  inferInstanceAs (Decidable (_ ∧ _))

instance (edit : Edit) (node : Node) : Decidable (edit.Spares node) :=
  inferInstanceAs (Decidable (_ ∨ _))

/-- Of some nodes those that the edit spares. -/
def spared (edit : Edit) (nodes : List Node) : List Node :=
  nodes.filter fun node => edit.Spares node

theorem Takes.not_spares
    {edit : Edit}
    {node : Node}
    (takes : edit.Takes node)
    (solid : node.start < node.stop) :
    ¬ edit.Spares node := by
  obtain ⟨start, stop⟩ := takes
  rintro (before | behind) <;> omega

end Edit

namespace ImportRemoval

/-! ## Lists with commas -/

section Lists

variable (m : Module)

/-- A binding: a node with a name that is written down. -/
def isBinding (node : Node) : Bool := node.kind.isNamed && m.text node != ""

def isComma (node : Node) : Bool := !node.kind.isNamed && m.text node == ","

/-- Bindings with exactly one comma between two of them, and perhaps one behind the
last. -/
def isSeparated : List Node → Bool
  | [] => true
  | [binding] => isBinding m binding
  | binding :: comma :: rest => isBinding m binding && isComma m comma && isSeparated rest

/-- Bindings each with a comma behind it. -/
def isPaired : List Node → Bool
  | [] => true
  | [_] => false
  | binding :: comma :: rest => isBinding m binding && isComma m comma && isPaired rest

end Lists

variable {m : Module}

theorem not_isBinding_of_isComma
    {node : Node}
    (comma : isComma m node = true) :
    isBinding m node = false := by
  rw [isComma, Bool.and_eq_true, Bool.not_eq_true'] at comma
  rw [isBinding, comma.1, Bool.false_and]

theorem isSeparated_cons_cons
    {binding comma : Node}
    {rest : List Node} :
    isSeparated m (binding :: comma :: rest) = true ↔
      isBinding m binding = true ∧ isComma m comma = true ∧
        isSeparated m rest = true := by
  rw [isSeparated, Bool.and_eq_true, Bool.and_eq_true, and_assoc]

/-- In front of a binding of a list all others have their commas. -/
theorem isSeparated_append_cons
    {front back : List Node}
    {binding : Node}
    (separated : isSeparated m (front ++ binding :: back) = true)
    (binds : isBinding m binding = true) :
    isPaired m front = true ∧ isSeparated m (binding :: back) = true := by
  fun_induction isPaired m front with
  | case1 => exact ⟨rfl, separated⟩
  | case2 other =>
    rw [List.singleton_append, isSeparated_cons_cons] at separated
    rw [not_isBinding_of_isComma separated.2.1] at binds
    contradiction
  | case3 other comma rest restHypothesis =>
    rw [List.cons_append, List.cons_append, isSeparated_cons_cons] at separated
    obtain ⟨isOther, isComma, rest⟩ := separated
    obtain ⟨paired, separated⟩ := restHypothesis rest
    rw [isOther, isComma, paired]
    exact ⟨rfl, separated⟩

theorem isSeparated_append
    {front back : List Node}
    (paired : isPaired m front = true)
    (separated : isSeparated m back = true) :
    isSeparated m (front ++ back) = true := by
  fun_induction isPaired m front with
  | case1 => exact separated
  | case2 => contradiction
  | case3 other comma rest restHypothesis =>
    rw [Bool.and_eq_true, Bool.and_eq_true] at paired
    obtain ⟨⟨isOther, isComma⟩, paired⟩ := paired
    exact isSeparated_cons_cons.2 ⟨isOther, isComma, restHypothesis paired⟩

/-- Some bindings with their commas end with a comma behind a binding. -/
theorem exists_of_isPaired
    {list : List Node}
    (paired : isPaired m list = true)
    (some : list ≠ []) :
    ∃ front binding comma, list = front ++ [binding, comma] ∧
      isPaired m front = true ∧ isBinding m binding = true ∧
      isComma m comma = true := by
  fun_induction isPaired m list with
  | case1 => contradiction
  | case2 => contradiction
  | case3 binding comma rest restHypothesis =>
    rw [Bool.and_eq_true, Bool.and_eq_true] at paired
    obtain ⟨⟨isBinding, isComma⟩, paired⟩ := paired
    cases rest with
    | nil => exact ⟨[], binding, comma, rfl, rfl, isBinding, isComma⟩
    | cons next rest =>
      obtain ⟨front, last, lastComma, restEq, frontPaired, isLast, isLastComma⟩ :=
        restHypothesis paired (List.cons_ne_nil _ _)
      refine ⟨binding :: comma :: front, last, lastComma, by rw [restEq]; rfl, ?_,
        isLast, isLastComma⟩
      rw [isPaired, isBinding, isComma, frontPaired]
      rfl

/-- Everything in a list is written down. -/
theorem text_ne_of_isSeparated
    {list : List Node}
    {node : Node}
    (separated : isSeparated m list = true)
    (member : node ∈ list) :
    m.text node ≠ "" := by
  have ofBinding {node : Node} (binding : isBinding m node = true) : m.text node ≠ "" := by
    rw [isBinding, Bool.and_eq_true, bne_iff_ne] at binding
    exact binding.2
  have ofComma {node : Node} (comma : isComma m node = true) : m.text node ≠ "" := by
    rw [isComma, Bool.and_eq_true, beq_iff_eq] at comma
    rw [comma.2]
    decide
  fun_induction isSeparated m list with
  | case1 => contradiction
  | case2 binding => exact List.mem_singleton.1 member ▸ ofBinding separated
  | case3 binding comma rest restHypothesis =>
    rw [Bool.and_eq_true, Bool.and_eq_true] at separated
    obtain ⟨⟨isBinding, isComma⟩, separated⟩ := separated
    rcases List.mem_cons.1 member with rfl | member
    · exact ofBinding isBinding
    rcases List.mem_cons.1 member with rfl | member
    · exact ofComma isComma
    · exact restHypothesis separated member

/-! ## The shape of an import -/

/-- The children of a node apart from comments. -/
def bare (node : Node) : List Node := node.children.filter (·.kind != .comment)

/-- Braces around a list of specifiers. -/
structure Encloses (braces opening closing : Node) (list : List Node) : Prop where
  children : bare braces = opening :: (list ++ [closing])
  opening : opening.kind.isNamed = false
  closing : closing.kind.isNamed = false
  specifiers : ∀ node ∈ list, node.kind.isNamed = true → node.kind = .importSpecifier

/-- What stands in a clause with braces around a list, apart from comments and the
braces. -/
inductive Holds (clause braces : Node) (list : List Node) : List Node → Prop
  | named (children : bare clause = [braces]) : Holds clause braces list list
  | withDefault
      {name comma : Node}
      (children : bare clause = [name, comma, braces])
      (isName : name.kind = .identifier) :
      Holds clause braces list (name :: comma :: list)

/-- An import statement of some bindings in braces, and perhaps one in front of
them, with exactly one comma between two of them. -/
structure IsImport
    (m : Module)
    (statement clause braces opening closing : Node)
    (list tokens : List Node) : Prop where
  clauseMember : clause ∈ statement.children
  isClause : clause.kind = .importClause
  isBraces : braces.kind = .namedImports
  encloses : Encloses braces opening closing list
  holds : Holds clause braces list tokens
  separated : isSeparated m tokens = true

theorem parts_eq_filter_bare
    (node : Node) :
    node.parts = (bare node).filter (·.kind.isNamed) := by
  unfold Node.parts Node.namedChildren bare
  rw [List.filter_filter, List.filter_filter]
  refine List.filter_congr fun child _ => ?_
  rw [Bool.and_comm]
  congr 1
  cases child.kind <;> rfl

theorem bare_sublist
    (node : Node) :
    (bare node).Sublist node.children :=
  List.filter_sublist

theorem Holds.braces_mem
    {clause braces : Node}
    {list tokens : List Node}
    (holds : Holds clause braces list tokens) :
    braces ∈ clause.children := by
  refine (bare_sublist clause).subset ?_
  cases holds with
  | named children => simp [children]
  | withDefault children => simp [children]

theorem Encloses.list_sublist
    {braces opening closing : Node}
    {list : List Node}
    (encloses : Encloses braces opening closing list) :
    list.Sublist braces.children := by
  have sublist := bare_sublist braces
  rw [encloses.children] at sublist
  exact ((List.sublist_append_left list [closing]).trans
    (List.sublist_cons_self opening _)).trans sublist

/-! ## Where things are found -/

/-- A node with a text covers some bytes. -/
theorem start_lt_stop_of_text
    {dialect : Dialect}
    {source : String}
    {node : Node}
    (parsed : Module.parse? dialect source = some m)
    (isNode : node ∈ m.tree.preorder)
    (written : m.text node ≠ "") :
    node.start < node.stop := by
  obtain ⟨front, back, -, startEq, stopEq⟩ := Module.exists_text parsed isNode
  cases textEq : (m.text node).toList with
  | nil => exact absurd (String.toList_eq_nil_iff.1 textEq) written
  | cons c rest =>
    have positive := c.utf8Size_pos
    rw [textEq, byteLength_append, ← List.singleton_append, byteLength_append,
      byteLength_singleton] at stopEq
    omega

theorem neighbours_append
    {front back : List Node}
    {node : Node}
    (inTurn : (front ++ node :: back).Pairwise fun a b => a.stop ≤ b.start)
    (solid : ∀ other ∈ front, other.start < other.stop) :
    neighbours (front ++ node :: back) node.start = (front.getLast?, back.head?) := by
  have before : ∀ other ∈ front, decide (other.start < node.start) = true := by
    intro other member
    have inFront := solid other member
    have inOrder := (List.pairwise_append.1 inTurn).2.2 other member node
      List.mem_cons_self
    exact decide_eq_true (by omega)
  have taken : (node :: back).takeWhile (fun other => decide (other.start < node.start)) =
      [] := List.takeWhile_cons_of_neg (by simp)
  have dropped : (node :: back).dropWhile
      (fun other => decide (other.start < node.start)) = node :: back :=
    List.dropWhile_cons_of_neg (by simp)
  unfold neighbours
  rw [List.takeWhile_append_of_pos before, taken, List.append_nil,
    List.dropWhile_append_of_pos before, dropped]
  rfl

/-- The statement that a node lies in is the one that is found to hold it. -/
theorem statementOf?_eq
    {statement node : Node}
    (orderly : m.Orderly)
    (isStatement : statement ∈ m.statements)
    (isImport : statement.kind = .importStatement)
    (inside : statement.start ≤ node.start ∧ node.stop ≤ statement.stop)
    (solid : node.start < node.stop) :
    statementOf? m node = some statement := by
  obtain ⟨front, back, statementsEq⟩ := List.append_of_mem isStatement
  have inTurn := orderly.inTurn
  rw [statementsEq] at inTurn
  have notFront : front.find? (fun other =>
      other.kind == .importStatement && other.covers node) = none := by
    rw [List.find?_eq_none]
    intro other isOther
    have before := (List.pairwise_append.1 inTurn).2.2 other isOther statement
      List.mem_cons_self
    rw [Bool.and_eq_true, Node.covers, Bool.and_eq_true, decide_eq_true_eq,
      decide_eq_true_eq]
    omega
  unfold statementOf?
  rw [statementsEq, List.find?_append, notFront, Option.none_or]
  refine List.find?_cons_of_pos ?_
  rw [isImport, Node.covers, Bool.and_eq_true, Bool.and_eq_true, decide_eq_true_eq,
    decide_eq_true_eq]
  exact ⟨rfl, inside⟩

/-- A node is found below itself if one of its children is looked for. -/
theorem parentOf?_self
    {top node : Node}
    (isChild : node ∈ top.children) :
    parentOf? top node = some top := by
  unfold parentOf?
  rw [Node.preorder_eq, List.find?_cons_of_pos]
  exact List.any_eq_true.2 ⟨node, isChild, by simp⟩

/-- What has a node as a child is found below the child of a node that the former
lies in. -/
theorem parentOf?_of_child
    {top middle node parent : Node}
    (nested : top.Nested)
    (isChild : middle ∈ top.children)
    (inside : middle.start ≤ node.start ∧ node.stop ≤ middle.stop)
    (solid : node.start < node.stop)
    (otherKind : middle.kind ≠ node.kind)
    (found : parentOf? middle node = some parent) :
    parentOf? top node = some parent := by
  have spanEq {other : Node} (same : (other.span == node.span) = true) :
      other.start = node.start ∧ other.stop = node.stop := by
    rw [beq_iff_eq] at same
    exact ⟨congrArg Span.start same, congrArg Span.stop same⟩
  -- neither the node itself nor what stands in front of the child can have such a child
  have notTop : ¬ (top.children.any fun child =>
      child.kind == node.kind && child.span == node.span) = true := by
    rw [List.any_eq_true]
    rintro ⟨other, isOther, same⟩
    rw [Bool.and_eq_true, beq_iff_eq] at same
    have different : other ≠ middle := by
      rintro rfl
      exact otherKind same.1
    obtain ⟨startEq, stopEq⟩ := spanEq same.2
    rcases nested.inTurn_of_ne isOther isChild different with before | behind <;> omega
  obtain ⟨front, back, childrenEq⟩ := List.append_of_mem isChild
  have inTurn := (nested top top.self_mem_preorder).inTurn
  rw [childrenEq] at inTurn
  have notFront : (front.flatMap Node.preorder).find? (fun other =>
      other.children.any fun child =>
        child.kind == node.kind && child.span == node.span) = none := by
    rw [List.find?_eq_none]
    intro other below
    obtain ⟨first, isFirst, below⟩ := List.mem_flatMap.1 below
    rw [List.any_eq_true]
    rintro ⟨child, isChild', same⟩
    rw [Bool.and_eq_true] at same
    obtain ⟨startEq, stopEq⟩ := spanEq same.2
    have firstNested := nested.of_mem
      (Node.child_mem_preorder (childrenEq ▸ List.mem_append_left _ isFirst))
    have childInside := firstNested.inside
      (Node.mem_preorder_trans below (Node.child_mem_preorder isChild'))
    have before := (List.pairwise_append.1 inTurn).2.2 first isFirst middle
      List.mem_cons_self
    omega
  have behindTop : (top :: top.children.flatMap Node.preorder).find? (fun other =>
      other.children.any fun child =>
        child.kind == node.kind && child.span == node.span) =
      (top.children.flatMap Node.preorder).find? _ := List.find?_cons_of_neg notTop
  unfold parentOf? at found ⊢
  rw [Node.preorder_eq, behindTop, childrenEq, List.flatMap_append, List.find?_append,
    notFront, Option.none_or, List.flatMap_cons, List.find?_append, found,
    Option.some_or]

section Parsed

variable
  {dialect : Dialect}
  {source : String}
  {statement clause braces opening closing : Node}
  {list tokens : List Node}
  (parsed : Module.parse? dialect source = some m)
  (isStatement : statement ∈ m.statements)
  (isImport : IsImport m statement clause braces opening closing list tokens)

include parsed isStatement isImport

theorem IsImport.clause_nested : clause.Nested :=
  ((Module.orderly_of_parse? parsed).statement isStatement).1.of_mem
    (Node.child_mem_preorder isImport.clauseMember)

theorem IsImport.braces_nested : braces.Nested :=
  (isImport.clause_nested parsed isStatement).of_mem
    (Node.child_mem_preorder isImport.holds.braces_mem)

/-- What stands in the clause stands there in turn. -/
theorem IsImport.inTurn : tokens.Pairwise fun a b => a.stop ≤ b.start := by
  have clauseNested := isImport.clause_nested parsed isStatement
  have bracesNested := isImport.braces_nested parsed isStatement
  have inBraces := (bracesNested braces braces.self_mem_preorder)
  have listInTurn := inBraces.inTurn.sublist isImport.encloses.list_sublist
  have clauseInTurn := (clauseNested clause clause.self_mem_preorder).inTurn.sublist
    (bare_sublist clause)
  cases isImport.holds with
  | named => exact listInTurn
  | withDefault children =>
    rw [children] at clauseInTurn
    simp only [List.pairwise_cons, List.mem_cons, List.not_mem_nil, or_false,
      forall_eq_or_imp, forall_eq] at clauseInTurn
    obtain ⟨⟨nameComma, nameBraces⟩, commaBraces, -⟩ := clauseInTurn
    have startLe {node : Node} (member : node ∈ list) : braces.start ≤ node.start :=
      (inBraces.inside node (isImport.encloses.list_sublist.subset member)).1
    refine List.pairwise_cons.2 ⟨fun node member => ?_,
      List.pairwise_cons.2 ⟨fun node member => ?_, listInTurn⟩⟩
    · rcases List.mem_cons.1 member with rfl | member
      · exact nameComma
      · exact Nat.le_trans nameBraces (startLe member)
    · exact Nat.le_trans commaBraces (startLe member)

/-- What stands in the clause lies below it and covers some bytes. -/
theorem IsImport.token
    {token : Node}
    (member : token ∈ tokens) :
    token ∈ clause.preorder ∧ token.start < token.stop := by
  have below : token ∈ clause.preorder := by
    have ofList (member : token ∈ list) : token ∈ clause.preorder :=
      Node.mem_preorder_of_child isImport.holds.braces_mem
        (Node.child_mem_preorder (isImport.encloses.list_sublist.subset member))
    cases isImport.holds with
    | named => exact ofList member
    | withDefault children =>
      have ofClause (inClause : token ∈ bare clause) : token ∈ clause.preorder :=
        Node.child_mem_preorder ((bare_sublist clause).subset inClause)
      rcases List.mem_cons.1 member with rfl | member
      · exact ofClause (by simp [children])
      rcases List.mem_cons.1 member with rfl | member
      · exact ofClause (by simp [children])
      · exact ofList member
  refine ⟨below, start_lt_stop_of_text parsed ?_
    (text_ne_of_isSeparated isImport.separated member)⟩
  exact Node.mem_preorder_trans (Module.statement_mem_preorder isStatement)
    (Node.mem_preorder_of_child isImport.clauseMember below)

/-- The braces and the clause are found again from a specifier. -/
theorem IsImport.parentOf?_eq
    {specifier : Node}
    (isSpecifier : specifier ∈ list)
    (solid : specifier.start < specifier.stop)
    (kindEq : specifier.kind = .importSpecifier) :
    parentOf? statement specifier = some braces ∧
      parentOf? statement braces = some clause := by
  have statementNested := ((Module.orderly_of_parse? parsed).statement isStatement).1
  have clauseNested := isImport.clause_nested parsed isStatement
  have bracesNested := isImport.braces_nested parsed isStatement
  have isChild := isImport.encloses.list_sublist.subset isSpecifier
  have inBraces := bracesNested.inside (Node.child_mem_preorder isChild)
  have inClause := clauseNested.inside
    (Node.child_mem_preorder isImport.holds.braces_mem)
  constructor
  · refine parentOf?_of_child statementNested isImport.clauseMember (by omega) solid
      (by rw [isImport.isClause, kindEq]; decide) ?_
    exact parentOf?_of_child clauseNested isImport.holds.braces_mem (by omega) solid
      (by rw [isImport.isBraces, kindEq]; decide) (parentOf?_self isChild)
  · exact parentOf?_of_child statementNested isImport.clauseMember inClause (by omega)
      (by rw [isImport.isClause, isImport.isBraces]; decide)
      (parentOf?_self isImport.holds.braces_mem)

end Parsed

/-! ## What is cut out -/

/-- An offset between the nodes of one list and those of another. -/
structure Cut (front : List Node) (offset : Nat) (back : List Node) : Prop where
  before : ∀ node ∈ front, node.stop ≤ offset
  behind : ∀ node ∈ back, offset ≤ node.start

theorem Cut.at_start
    {front back : List Node}
    {node : Node}
    (inTurn : (front ++ node :: back).Pairwise fun a b => a.stop ≤ b.start)
    (forward : node.start ≤ node.stop) :
    Cut front node.start (node :: back) where
  before other member :=
    (List.pairwise_append.1 inTurn).2.2 other member node List.mem_cons_self
  behind other member := by
    rcases List.mem_cons.1 member with rfl | member
    · exact Nat.le_refl _
    · have inOrder := (List.pairwise_cons.1
        (List.pairwise_append.1 inTurn).2.1).1 other member
      omega

theorem Cut.at_stop
    {front back : List Node}
    {node : Node}
    (inTurn : (front ++ node :: back).Pairwise fun a b => a.stop ≤ b.start)
    (forward : node.start ≤ node.stop) :
    Cut (front ++ [node]) node.stop back where
  before other member := by
    rcases List.mem_append.1 member with member | member
    · have inOrder := (List.pairwise_append.1 inTurn).2.2 other member node
        List.mem_cons_self
      omega
    · rw [List.mem_singleton.1 member]
  behind := (List.pairwise_cons.1 (List.pairwise_append.1 inTurn).2.1).1

/-- One binding of a list is cut out with what is no binding, and the rest stays. -/
structure CutsOut
    (m : Module)
    (specifier : Node)
    (tokens rest : List Node)
    (edit : Edit) : Prop where
  nothing : edit.replacement = []
  taken : edit.Takes specifier
  others : ∀ other ∈ tokens, isBinding m other = true → other ≠ specifier →
    edit.Spares other
  entire : ∀ token ∈ tokens, edit.Takes token ∨ edit.Spares token
  order : ∃ front back, tokens.filter (isBinding m) = front ++ specifier :: back ∧
    rest.filter (isBinding m) = front ++ back
  spared : edit.spared tokens = rest

theorem cutsOut_of_cuts
    {front before behind back : List Node}
    {specifier : Node}
    {start stop : Nat}
    (low : Cut front start (before ++ specifier :: behind ++ back))
    (high : Cut (front ++ (before ++ specifier :: behind)) stop back)
    (binding : isBinding m specifier = true)
    (noBinding : ∀ token ∈ before ++ behind, isBinding m token = false)
    (solid : ∀ token ∈ front ++ (before ++ specifier :: behind ++ back),
      token.start < token.stop) :
    CutsOut m specifier (front ++ (before ++ specifier :: behind ++ back))
      (front ++ back) (.removal start stop) := by
  have sparesFront {node : Node} (member : node ∈ front) :
      (Edit.removal start stop).Spares node :=
    .inl (Int.ofNat_le.2 (low.before node member))
  have sparesBack {node : Node} (member : node ∈ back) :
      (Edit.removal start stop).Spares node :=
    .inr (Int.ofNat_le.2 (high.behind node member))
  have takes {node : Node} (member : node ∈ before ++ specifier :: behind) :
      (Edit.removal start stop).Takes node :=
    ⟨Int.ofNat_le.2 (low.behind node (List.mem_append_left _ member)),
      Int.ofNat_le.2 (high.before node (List.mem_append_right _ member))⟩
  have isSpecifier : specifier ∈ before ++ specifier :: behind := by simp
  refine ⟨rfl, takes isSpecifier, fun other member isOther different => ?_,
    fun token member => ?_, ?_, ?_⟩
  · rcases List.mem_append.1 member with inFront | member
    · exact sparesFront inFront
    rcases List.mem_append.1 member with inMiddle | inBack
    · rw [List.mem_append, List.mem_cons] at inMiddle
      have inMiddle : other ∈ before ++ behind := by
        rw [List.mem_append]
        tauto
      rw [noBinding other inMiddle] at isOther
      contradiction
    · exact sparesBack inBack
  · rcases List.mem_append.1 member with inFront | member
    · exact .inr (sparesFront inFront)
    rcases List.mem_append.1 member with inMiddle | inBack
    · exact .inl (takes inMiddle)
    · exact .inr (sparesBack inBack)
  · have none {nodes : List Node} (isSome : nodes ⊆ before ++ behind) :
        nodes.filter (isBinding m) = [] := by
      rw [List.filter_eq_nil_iff]
      intro token member
      rw [noBinding token (isSome member)]
      decide
    refine ⟨front.filter (isBinding m), back.filter (isBinding m), ?_,
      List.filter_append _ _⟩
    rw [List.filter_append, List.filter_append, List.filter_append,
      List.filter_cons_of_pos binding, none (List.subset_append_left _ _),
      none (List.subset_append_right _ _)]
    simp
  · have all {nodes : List Node} (spares : ∀ node ∈ nodes,
        (Edit.removal start stop).Spares node) :
        nodes.filter (fun node => (Edit.removal start stop).Spares node) = nodes :=
      List.filter_eq_self.2 fun node member => decide_eq_true (spares node member)
    have none : (before ++ specifier :: behind).filter
        (fun node => (Edit.removal start stop).Spares node) = [] := by
      rw [List.filter_eq_nil_iff]
      intro node member
      rw [decide_eq_true_eq]
      exact (takes member).not_spares (solid node (by
        rw [List.mem_append, List.mem_append]
        exact .inr (.inl member)))
    rw [Edit.spared, List.filter_append, List.filter_append, none,
      all fun node => sparesFront, all fun node => sparesBack, List.nil_append]

/-- What follows a binding in a list with another binding behind it. -/
theorem exists_next
    {binding : Node}
    {rest : List Node}
    (separated : isSeparated m (binding :: rest) = true)
    (some : rest.filter (isBinding m) ≠ []) :
    ∃ comma next others, rest = comma :: next :: others ∧ isComma m comma = true ∧
      isBinding m next = true ∧ isSeparated m (next :: others) = true := by
  match rest with
  | [] => contradiction
  | [comma] =>
    rw [isSeparated_cons_cons] at separated
    rw [List.filter_cons_of_neg (by
      rw [not_isBinding_of_isComma separated.2.1]
      decide)] at some
    contradiction
  | comma :: next :: others =>
    obtain ⟨-, isComma, separated⟩ := isSeparated_cons_cons.1 separated
    refine ⟨comma, next, others, rfl, isComma, ?_, separated⟩
    cases others with
    | nil => exact separated
    | cons => exact (isSeparated_cons_cons.1 separated).1

/-- An edit takes one binding out of an import: the specifier goes, all other
bindings stay in their order with one comma between two of them, the statement goes
if no binding is left, and the braces if none is left in them. -/
structure TakesOut
    (m : Module)
    (statement braces opening closing specifier : Node)
    (list tokens : List Node)
    (edit : Edit) : Prop where
  cutsOut : CutsOut m specifier tokens (edit.spared tokens) edit
  separated : isSeparated m (edit.spared tokens) = true
  whole : edit.Takes statement ↔ tokens.filter (isBinding m) = [specifier]
  emptied : edit.Takes braces ↔ list.filter (isBinding m) = [specifier]
  bracesStay : ¬ edit.Takes braces → edit.Spares opening ∧ edit.Spares closing
  bracesGo : edit.Takes braces →
    ∀ token ∈ edit.spared tokens, isBinding m token = true

section Parsed

variable
  {dialect : Dialect}
  {source : String}
  {statement clause braces opening closing specifier : Node}
  {list tokens front first second : List Node}
  (parsed : Module.parse? dialect source = some m)
  (isStatement : statement ∈ m.statements)
  (isImport : IsImport m statement clause braces opening closing list tokens)

include parsed isStatement isImport

/-- The braces stay if another binding in them does. -/
theorem IsImport.takesOut_of_other
    {edit : Edit}
    {rest : List Node}
    {other : Node}
    (listTokens : list.Sublist tokens)
    (cutsOut : CutsOut m specifier tokens rest edit)
    (separated : isSeparated m rest = true)
    (isOther : other ∈ list)
    (binding : isBinding m other = true)
    (different : other ≠ specifier)
    (openingStays : (opening.stop : Int) ≤ edit.start)
    (closingStays : edit.stop ≤ closing.start) :
    TakesOut m statement braces opening closing specifier list tokens edit := by
  have spares := cutsOut.others other (listTokens.subset isOther) binding different
  have solid := (isImport.token parsed isStatement (listTokens.subset isOther)).2
  have bracesNested := isImport.braces_nested parsed isStatement
  have inBraces := bracesNested.inside
    (Node.child_mem_preorder (isImport.encloses.list_sublist.subset isOther))
  have inStatement := ((Module.orderly_of_parse? parsed).statement isStatement).1.inside
    (Node.mem_preorder_of_child isImport.clauseMember
      (Node.child_mem_preorder isImport.holds.braces_mem))
  have notBraces : ¬ edit.Takes braces := by
    rintro ⟨start, stop⟩
    exact Edit.Takes.not_spares ⟨by omega, by omega⟩ solid spares
  have notOnly {nodes : List Node} (member : other ∈ nodes) :
      nodes.filter (isBinding m) ≠ [specifier] := by
    intro only
    have inFilter := List.mem_filter.2 ⟨member, binding⟩
    rw [only, List.mem_singleton] at inFilter
    exact different inFilter
  have restEq := cutsOut.spared
  subst restEq
  exact {
    cutsOut := cutsOut
    separated := separated
    whole := iff_of_false (fun ⟨start, stop⟩ => notBraces ⟨by omega, by omega⟩)
      (notOnly (listTokens.subset isOther))
    emptied := iff_of_false notBraces (notOnly isOther)
    bracesStay := fun _ => ⟨.inl openingStays, .inr closingStays⟩
    bracesGo := fun takes => absurd takes notBraces }

/-- A binding with another one behind it in the braces goes with the comma between
them. -/
theorem IsImport.takesOut_first
    {comma next : Node}
    (tokensEq : tokens = front ++ (first ++ specifier :: comma :: next :: second))
    (listEq : list = first ++ specifier :: comma :: next :: second)
    (binding : isBinding m specifier = true)
    (separates : isComma m comma = true)
    (isNext : isBinding m next = true) :
    TakesOut m statement braces opening closing specifier list tokens
      (.removal specifier.start next.start) := by
  have inTurn := isImport.inTurn parsed isStatement
  have token {node : Node} (member : node ∈ tokens) : node.start < node.stop :=
    (isImport.token parsed isStatement member).2
  have separated := isImport.separated
  have listTokens : list.Sublist tokens := by
    rw [tokensEq, ← listEq]
    exact List.sublist_append_right _ _
  have specifierSolid := token (listTokens.subset (by simp [listEq] : specifier ∈ list))
  have nextSolid := token (listTokens.subset (by simp [listEq] : next ∈ list))
  rw [← List.append_assoc] at tokensEq
  rw [tokensEq] at inTurn separated
  obtain ⟨paired, separated⟩ := isSeparated_append_cons separated binding
  have separated := (isSeparated_cons_cons.1 separated).2.2
  have low := Cut.at_start inTurn (Nat.le_of_lt specifierSolid)
  have high : Cut (front ++ first ++ [specifier, comma]) next.start
      (next :: second) := by
    refine Cut.at_start ?_ (Nat.le_of_lt nextSolid)
    rw [List.append_assoc]
    exact inTurn
  have inBraces := (isImport.braces_nested parsed isStatement
    braces braces.self_mem_preorder).inTurn.sublist (bare_sublist braces)
  rw [isImport.encloses.children, List.pairwise_cons, List.pairwise_append] at inBraces
  obtain ⟨behindOpening, -, -, beforeClosing⟩ := inBraces
  have openingStays := behindOpening specifier (by simp [listEq])
  have closingStays := beforeClosing next (by simp [listEq]) closing
    (List.mem_singleton.2 rfl)
  have cuts : CutsOut m specifier
      (front ++ first ++ ([] ++ specifier :: [comma] ++ next :: second))
      (front ++ first ++ next :: second) (.removal specifier.start next.start) :=
    cutsOut_of_cuts low high binding
      (by simpa using not_isBinding_of_isComma separates) fun node member =>
        token (by rw [tokensEq]; simpa using member)
  refine isImport.takesOut_of_other parsed isStatement listTokens
    (tokensEq ▸ cuts) (isSeparated_append paired separated) (by simp [listEq]) isNext ?_
    (Int.ofNat_le.2 openingStays) (Int.ofNat_le.2 (by omega))
  rintro rfl
  have inOrder := (List.pairwise_cons.1 (List.pairwise_append.1 inTurn).2.1).1
    next (by simp)
  omega

/-- The last of some bindings in the braces goes with the comma in front of it. -/
theorem IsImport.takesOut_last
    {previous comma : Node}
    (tokensEq : tokens = front ++ (first ++ previous :: comma :: specifier :: second))
    (listEq : list = first ++ previous :: comma :: specifier :: second)
    (binding : isBinding m specifier = true)
    (isPrevious : isBinding m previous = true)
    (none : second.filter (isBinding m) = []) :
    TakesOut m statement braces opening closing specifier list tokens
      (.removal previous.stop specifier.stop) := by
  have inTurn := isImport.inTurn parsed isStatement
  have token {node : Node} (member : node ∈ tokens) : node.start < node.stop :=
    (isImport.token parsed isStatement member).2
  have separated := isImport.separated
  have listTokens : list.Sublist tokens := by
    rw [tokensEq, ← listEq]
    exact List.sublist_append_right _ _
  have specifierSolid := token (listTokens.subset (by simp [listEq] : specifier ∈ list))
  have previousSolid := token (listTokens.subset (by simp [listEq] : previous ∈ list))
  rw [← List.append_assoc] at tokensEq
  rw [tokensEq] at inTurn separated
  obtain ⟨paired, separated⟩ := isSeparated_append_cons separated isPrevious
  obtain ⟨-, separates, separated⟩ := isSeparated_cons_cons.1 separated
  have restSeparated : isSeparated m (previous :: second) = true := by
    cases second with
    | nil => exact isPrevious
    | cons last second =>
      obtain ⟨-, isLast, separated⟩ := isSeparated_cons_cons.1 separated
      exact isSeparated_cons_cons.2 ⟨isPrevious, isLast, separated⟩
  have low := Cut.at_stop inTurn (Nat.le_of_lt previousSolid)
  have high : Cut (front ++ first ++ [previous] ++ [comma, specifier]) specifier.stop
      second := by
    have regroup : front ++ first ++ previous :: comma :: specifier :: second =
        front ++ first ++ [previous, comma] ++ specifier :: second := by simp
    rw [regroup] at inTurn
    have cut := Cut.at_stop inTurn (Nat.le_of_lt specifierSolid)
    simpa only [List.append_assoc, List.cons_append, List.nil_append] using cut
  have inBraces := (isImport.braces_nested parsed isStatement
    braces braces.self_mem_preorder).inTurn.sublist (bare_sublist braces)
  rw [isImport.encloses.children, List.pairwise_cons, List.pairwise_append] at inBraces
  obtain ⟨behindOpening, -, -, beforeClosing⟩ := inBraces
  have openingStays := behindOpening previous (by simp [listEq])
  have closingStays := beforeClosing specifier (by simp [listEq]) closing
    (List.mem_singleton.2 rfl)
  have cuts : CutsOut m specifier
      (front ++ first ++ [previous] ++ ([comma] ++ specifier :: [] ++ second))
      (front ++ first ++ [previous] ++ second)
      (.removal previous.stop specifier.stop) :=
    cutsOut_of_cuts low high binding
      (by simpa using not_isBinding_of_isComma separates) fun node member =>
        token (by rw [tokensEq]; simpa using member)
  have regroup : front ++ first ++ [previous] ++ ([comma] ++ specifier :: [] ++ second) =
      tokens := by rw [tokensEq]; simp
  rw [regroup, List.append_assoc, List.singleton_append] at cuts
  refine isImport.takesOut_of_other parsed isStatement listTokens cuts
    (isSeparated_append paired restSeparated) (by simp [listEq]) isPrevious ?_
    (Int.ofNat_le.2 (by omega)) (Int.ofNat_le.2 closingStays)
  rintro rfl
  have inOrder := (List.pairwise_cons.1 (List.pairwise_append.1 inTurn).2.1).1
    previous (by simp)
  omega

/-- The statement goes with its only binding. -/
theorem IsImport.takesOut_whole
    (holds : tokens = first ++ specifier :: second)
    (listEq : list = tokens)
    (binding : isBinding m specifier = true)
    (noOther : ∀ token ∈ first ++ second, isBinding m token = false) :
    TakesOut m statement braces opening closing specifier list tokens
      (LineSpan.removal m statement false) := by
  have nested := ((Module.orderly_of_parse? parsed).statement isStatement).1
  have inStatement {node : Node} (below : node ∈ clause.preorder) :=
    nested.inside (Node.mem_preorder_of_child isImport.clauseMember below)
  have token {node : Node} (member : node ∈ tokens) :=
    isImport.token parsed isStatement member
  have around : (LineSpan.around m.bytes statement false).start ≤ statement.start ∧
      statement.stop ≤ (LineSpan.around m.bytes statement false).stop :=
    ⟨Nat.sub_le _ _, Nat.le_add_right _ _⟩
  have cuts : CutsOut m specifier ([] ++ (first ++ specifier :: second ++ [])) ([] ++ [])
      (LineSpan.removal m statement false) := by
    refine cutsOut_of_cuts ⟨by simp, fun node member => ?_⟩
      ⟨fun node member => ?_, by simp⟩ binding noOther fun node member => ?_
    · have inside := inStatement (token (by simpa [holds] using member)).1
      omega
    · have inside := inStatement (token (by simpa [holds] using member)).1
      omega
    · exact (token (by simpa [holds] using member)).2
  rw [List.nil_append, List.append_nil, List.nil_append, ← holds] at cuts
  have only : tokens.filter (isBinding m) = [specifier] := by
    obtain ⟨front, back, tokensEq, restEq⟩ := cuts.order
    rw [List.filter_nil, eq_comm, List.append_eq_nil_iff] at restEq
    rw [tokensEq, restEq.1, restEq.2]
    rfl
  have takes {node : Node} (inside : statement.start ≤ node.start ∧
      node.stop ≤ statement.stop) : (LineSpan.removal m statement false).Takes node :=
    ⟨Int.ofNat_le.2 (by omega), Int.ofNat_le.2 (by omega)⟩
  have takesBraces := takes (inStatement
    (Node.child_mem_preorder isImport.holds.braces_mem))
  have restEq := cuts.spared
  refine ⟨by rw [restEq]; exact cuts, by rw [restEq]; rfl,
    iff_of_true (takes ⟨Nat.le_refl _, Nat.le_refl _⟩) only,
    iff_of_true takesBraces (listEq ▸ only), fun stays => absurd takesBraces stays, ?_⟩
  rw [restEq]
  simp

/-- The braces go with the only binding in them, if one in front of them stays. -/
theorem IsImport.takesOut_braces
    {name comma : Node}
    (outer : bare clause = [name, comma, braces])
    (tokensEq : tokens = name :: comma :: list)
    (listEq : list = first ++ specifier :: second)
    (binding : isBinding m specifier = true)
    (noOther : ∀ token ∈ first ++ second, isBinding m token = false) :
    TakesOut m statement braces opening closing specifier list tokens
      (.removal name.stop braces.stop) := by
  have inTurn := isImport.inTurn parsed isStatement
  have separated := isImport.separated
  have nested := ((Module.orderly_of_parse? parsed).statement isStatement).1
  have inBraces := (isImport.braces_nested parsed isStatement
    braces braces.self_mem_preorder).inside
  have clauseInTurn := (isImport.clause_nested parsed isStatement clause
    clause.self_mem_preorder).inTurn.sublist (bare_sublist clause)
  rw [outer] at clauseInTurn
  simp only [List.pairwise_cons, List.mem_cons, List.not_mem_nil, or_false,
    forall_eq_or_imp, forall_eq] at clauseInTurn
  have token {node : Node} (member : node ∈ tokens) :=
    isImport.token parsed isStatement member
  have isName : name ∈ tokens := tokensEq ▸ List.mem_cons_self
  have nameSolid := (token isName).2
  rw [tokensEq] at inTurn separated
  obtain ⟨nameBinds, separates, -⟩ := isSeparated_cons_cons.1 separated
  have regroup : [name] ++ (comma :: first ++ specifier :: second ++ []) = tokens := by
    rw [tokensEq, listEq]
    simp
  have low : Cut ([] ++ [name]) name.stop (comma :: list) :=
    Cut.at_stop inTurn (Nat.le_of_lt nameSolid)
  have high : Cut tokens braces.stop [] := by
    refine ⟨fun node member => ?_, by simp⟩
    rw [tokensEq, List.mem_cons, List.mem_cons] at member
    have bracesForward := (isImport.braces_nested parsed isStatement).forward
    rcases member with rfl | rfl | member
    · omega
    · omega
    · exact (inBraces node (isImport.encloses.list_sublist.subset member)).2
  have cuts : CutsOut m specifier ([name] ++ (comma :: first ++ specifier :: second ++ []))
      ([name] ++ []) (.removal name.stop braces.stop) := by
    refine cutsOut_of_cuts ?_ ?_ binding ?_ fun node member =>
      (token (regroup ▸ member)).2
    · rw [listEq] at low
      simpa using low
    · rw [← List.append_nil (comma :: first ++ specifier :: second), regroup]
      exact high
    · intro node member
      rw [List.cons_append, List.mem_cons] at member
      rcases member with rfl | member
      · exact not_isBinding_of_isComma separates
      · exact noOther node member
  rw [regroup, List.append_nil] at cuts
  have onlyInBraces : list.filter (isBinding m) = [specifier] := by
    have none {nodes : List Node} (isSome : nodes ⊆ first ++ second) :
        nodes.filter (isBinding m) = [] := by
      rw [List.filter_eq_nil_iff]
      intro node member
      rw [noOther node (isSome member)]
      decide
    rw [listEq, List.filter_append, List.filter_cons_of_pos binding,
      none (List.subset_append_left _ _), none (List.subset_append_right _ _)]
    rfl
  have restEq := cuts.spared
  refine ⟨by rw [restEq]; exact cuts, by rw [restEq]; exact nameBinds,
    iff_of_false ?_ ?_, iff_of_true ?_ onlyInBraces, fun stays => absurd ?_ stays, ?_⟩
  · rintro ⟨start, -⟩
    have inside := nested.inside
      (Node.mem_preorder_of_child isImport.clauseMember (token isName).1)
    have start := Int.ofNat_le.1 start
    omega
  · rw [tokensEq, List.filter_cons_of_pos nameBinds, List.filter_cons_of_neg
      (by rw [not_isBinding_of_isComma separates]; decide), onlyInBraces]
    exact fun same => by cases same
  · exact ⟨Int.ofNat_le.2 clauseInTurn.1.2, Int.le_refl _⟩
  · exact ⟨Int.ofNat_le.2 clauseInTurn.1.2, Int.le_refl _⟩
  · rw [restEq]
    intro _ node member
    rw [List.mem_singleton.1 member]
    exact nameBinds

omit parsed isStatement in
/-- The specifiers in the braces are the bindings of the list. -/
theorem IsImport.specifiers_eq :
    braces.namedChildren.filter (·.kind == .importSpecifier) =
      list.filter (isBinding m) := by
  have bareOnly (nodes : List Node) :
      (nodes.filter (·.kind.isNamed)).filter (·.kind == .importSpecifier) =
        (nodes.filter (·.kind != .comment)).filter (·.kind == .importSpecifier) := by
    rw [List.filter_filter, List.filter_filter]
    refine List.filter_congr fun node _ => ?_
    by_cases kindEq : node.kind = .importSpecifier
    · rw [kindEq]
      rfl
    · rw [beq_eq_false_iff_ne.2 kindEq, Bool.false_and, Bool.false_and]
  have noEdge {node : Node} (unnamed : node.kind.isNamed = false) :
      ¬ (node.kind == Kind.importSpecifier) = true := by
    rw [beq_iff_eq]
    intro kindEq
    rw [kindEq] at unnamed
    contradiction
  obtain ⟨children, openingUnnamed, closingUnnamed, named⟩ := isImport.encloses
  have tokensBind {node : Node} (member : node ∈ list) : node ∈ tokens := by
    cases isImport.holds with
    | named => exact member
    | withDefault => exact List.mem_cons_of_mem _ (List.mem_cons_of_mem _ member)
  unfold Node.namedChildren
  rw [bareOnly]
  show (bare braces).filter _ = _
  rw [children, List.filter_cons, if_neg (noEdge openingUnnamed), List.filter_append,
    List.filter_cons, if_neg (noEdge closingUnnamed), List.filter_nil, List.append_nil]
  refine List.filter_congr fun node member => ?_
  have written : (m.text node != "") = true :=
    bne_iff_ne.2 (text_ne_of_isSeparated isImport.separated (tokensBind member))
  rw [isBinding, written, Bool.and_true]
  cases isNamed : node.kind.isNamed with
  | true => rw [named node member isNamed]; rfl
  | false => exact Bool.eq_false_iff.2 (noEdge isNamed)

/-- Beside a specifier stand the last binding in front of it and the first one behind
it. -/
theorem IsImport.neighbours_eq
    (listEq : list = first ++ specifier :: second)
    (binding : isBinding m specifier = true) :
    neighbours (first.filter (isBinding m) ++
        specifier :: second.filter (isBinding m)) specifier.start =
      ((first.filter (isBinding m)).getLast?,
        (second.filter (isBinding m)).head?) := by
  have sublist : list.Sublist tokens := by
    cases isImport.holds with
    | named => exact List.Sublist.refl _
    | @withDefault name comma => exact List.sublist_append_right [name, comma] list
  have kept := ((isImport.inTurn parsed isStatement).sublist sublist).sublist
    (List.filter_sublist : (list.filter (isBinding m)).Sublist list)
  rw [listEq, List.filter_append, List.filter_cons_of_pos binding] at kept
  refine neighbours_append kept fun other member =>
    (isImport.token parsed isStatement (sublist.subset ?_)).2
  rw [listEq]
  exact List.mem_append_left _ (List.mem_filter.1 member).1

/-- A specifier without another one in the braces goes with the braces, or with the
statement if nothing stands in front of these. -/
theorem IsImport.takesOut_alone
    (listEq : list = specifier :: second)
    (kindEq : specifier.kind = .importSpecifier)
    (binding : isBinding m specifier = true)
    (behindUnbound : ∀ node ∈ second, isBinding m node = false) :
    TakesOut m statement braces opening closing specifier list tokens
      (edit m statement specifier) := by
  have isSpecifier : specifier ∈ list := by
    rw [listEq]
    exact List.mem_cons_self
  have noneBehind : second.filter (isBinding m) = [] :=
    List.filter_eq_nil_iff.2 fun node member => by
      rw [behindUnbound node member]
      decide
  have specifiersEq := isImport.specifiers_eq
  rw [listEq, List.filter_cons_of_pos binding, noneBehind] at specifiersEq
  have bracesNamed : braces.kind.isNamed = true := by
    rw [isImport.isBraces]
    rfl
  have shape := isImport.holds
  have solid : specifier.start < specifier.stop := by
    cases shape with
    | named => exact (isImport.token parsed isStatement isSpecifier).2
    | withDefault => exact (isImport.token parsed isStatement
        (List.mem_cons_of_mem _ (List.mem_cons_of_mem _ isSpecifier))).2
  obtain ⟨bracesFound, clauseFound⟩ :=
    isImport.parentOf?_eq parsed isStatement isSpecifier solid kindEq
  unfold edit
  rw [bracesFound]
  simp only [specifiersEq]
  rw [if_neg (by simp), clauseFound]
  simp only
  cases shape with
  | named outer =>
    have parts : clause.parts = [] ++ braces :: [] := by
      rw [parts_eq_filter_bare, outer]
      simp [bracesNamed]
    have holds : list = [] ++ specifier :: second := listEq
    rw [parts, neighbours_append (by simp) (by simp)]
    exact isImport.takesOut_whole parsed isStatement holds rfl binding behindUnbound
  | @withDefault name comma outer isName =>
    have nameNamed : name.kind.isNamed = true := by rw [isName]; rfl
    have commaUnnamed : ¬ comma.kind.isNamed = true := by
      have separates := (isSeparated_cons_cons.1 isImport.separated).2.1
      rw [isComma, Bool.and_eq_true, Bool.not_eq_true'] at separates
      rw [separates.1]
      decide
    have parts : clause.parts = [name] ++ braces :: [] := by
      rw [parts_eq_filter_bare, outer]
      simp [nameNamed, commaUnnamed, bracesNamed]
    have inClause := ((isImport.clause_nested parsed isStatement) clause
      clause.self_mem_preorder).inTurn.sublist (bare_sublist clause)
    have partsInTurn : ([name] ++ braces :: []).Pairwise
        fun a b => a.stop ≤ b.start := by
      refine inClause.sublist ?_
      rw [outer]
      exact (List.sublist_cons_self comma [braces]).cons_cons name
    have nameSolid := (isImport.token parsed isStatement List.mem_cons_self).2
    have holds : list = [] ++ specifier :: second := listEq
    rw [parts, neighbours_append partsInTurn (by simpa using nameSolid)]
    exact isImport.takesOut_braces parsed isStatement outer rfl holds binding
      behindUnbound

end Parsed

/-- The removal of a specifier from an import with braces, where apart from comments
and the braces exactly one comma stands between two bindings.  The specifier goes and
no other binding is touched; the bindings that stay keep their order and have exactly
one comma between two of them; the statement goes exactly if the specifier is its only
binding, and the braces exactly if it is the only one in them. -/
theorem edit_takesOut
    {dialect : Dialect}
    {source : String}
    {statement clause braces opening closing specifier : Node}
    {list tokens : List Node}
    (parsed : Module.parse? dialect source = some m)
    (isStatement : statement ∈ m.statements)
    (statementKind : statement.kind = .importStatement)
    (isImport : IsImport m statement clause braces opening closing list tokens)
    (isSpecifier : specifier ∈ list)
    (kindEq : specifier.kind = .importSpecifier) :
    statementOf? m specifier = some statement ∧
      TakesOut m statement braces opening closing specifier list tokens
        (edit m statement specifier) := by
  obtain ⟨front, tokensEq⟩ : ∃ front, tokens = front ++ list := by
    cases isImport.holds with
    | named => exact ⟨[], rfl⟩
    | @withDefault name comma => exact ⟨[name, comma], rfl⟩
  have inTokens {node : Node} (member : node ∈ list) : node ∈ tokens :=
    tokensEq ▸ List.mem_append_right _ member
  have token {node : Node} (member : node ∈ list) :=
    (isImport.token parsed isStatement (inTokens member)).2
  have binding : isBinding m specifier = true := by
    rw [isBinding, kindEq, Bool.and_eq_true, bne_iff_ne]
    exact ⟨rfl, text_ne_of_isSeparated isImport.separated (inTokens isSpecifier)⟩
  obtain ⟨bracesFound, -⟩ :=
    isImport.parentOf?_eq parsed isStatement isSpecifier (token isSpecifier) kindEq
  obtain ⟨first, second, listEq⟩ := List.append_of_mem isSpecifier
  have listSeparated : isSeparated m list = true := by
    have separated := isImport.separated
    cases isImport.holds with
    | named => exact separated
    | withDefault => exact (isSeparated_cons_cons.1 separated).2.2
  rw [listEq] at listSeparated
  obtain ⟨paired, separated⟩ := isSeparated_append_cons listSeparated binding
  have specifiersEq := isImport.specifiers_eq
  rw [listEq, List.filter_append, List.filter_cons_of_pos binding] at specifiersEq
  have beside := isImport.neighbours_eq parsed isStatement listEq binding
  have orderly := Module.orderly_of_parse? parsed
  have inStatement := (orderly.statement isStatement).1.inside
    (Node.mem_preorder_of_child isImport.clauseMember
      (isImport.token parsed isStatement (inTokens isSpecifier)).1)
  refine ⟨statementOf?_eq orderly isStatement statementKind inStatement
    (token isSpecifier), ?_⟩
  by_cases noneBehind : second.filter (isBinding m) = []
  · by_cases noneBefore : first = []
    · subst noneBefore
      refine isImport.takesOut_alone parsed isStatement listEq kindEq binding
        fun node member => ?_
      rw [← Bool.not_eq_true]
      exact List.filter_eq_nil_iff.1 noneBehind node member
    · obtain ⟨before, previous, comma, rfl, -, isPrevious, separates⟩ :=
        exists_of_isPaired paired noneBefore
      unfold edit
      rw [bracesFound]
      simp only [specifiersEq, beside]
      rw [List.append_assoc] at listEq
      rw [List.filter_append, List.filter_cons_of_pos isPrevious,
        List.filter_cons_of_neg (by
          rw [not_isBinding_of_isComma separates]
          decide), List.filter_nil, noneBehind, if_pos (by simp)]
      simp only [List.getLast?_append, List.getLast?_singleton, List.head?_nil,
        Option.some_or]
      exact isImport.takesOut_last parsed isStatement (listEq ▸ tokensEq) listEq binding
        isPrevious noneBehind
  · obtain ⟨comma, next, others, rfl, separates, isNext, -⟩ :=
      exists_next separated noneBehind
    unfold edit
    rw [bracesFound]
    simp only [specifiersEq, beside]
    rw [List.filter_cons_of_neg (by
      rw [not_isBinding_of_isComma separates]
      decide), List.filter_cons_of_pos isNext, if_pos (by
        rw [List.length_append, List.length_cons, List.length_cons]
        omega)]
    simp only [List.head?_cons]
    exact isImport.takesOut_first parsed isStatement (listEq ▸ tokensEq) listEq binding
      separates isNext

/-- Whether a clause with a default binding and three specifiers in braces, with a
comma at the end, has tokens of these texts. -/
def bindsThree (m : Module) (clause : Node) (texts : List String) : Bool :=
  match bare clause with
  | [name, comma, braces] =>
    name.kind == .identifier && braces.kind == .namedImports &&
      match bare braces with
      | [opening, a, first, s, second, b, third, closing] =>
        !opening.kind.isNamed && !closing.kind.isNamed &&
          [a, first, s, second, b, third].all (fun node =>
            !node.kind.isNamed || node.kind == .importSpecifier) &&
          s.kind == .importSpecifier &&
          isSeparated m [name, comma, a, first, s, second, b, third] &&
          [name, comma, a, first, s, second, b, third].map m.text == texts
      | _ => false
  | _ => false

set_option maxRecDepth 100000 in
/-- A specifier between two others, behind a default binding and with comments, line
breaks and a comma at the end. -/
theorem edit_takesOut_between :
    ∃ m statement braces opening closing specifier list tokens,
      Module.parse? .javascript
        ("import D, \x7b\n  a, // first\n  storiesOf,\n  b as c, /* last */\n\x7d" ++
          " from '@storybook/react';\n") = some m ∧
      statementOf? m specifier = some statement ∧
      m.text specifier = "storiesOf" ∧
      tokens.map m.text = ["D", ",", "a", ",", "storiesOf", ",", "b as c", ","] ∧
      TakesOut m statement braces opening closing specifier list tokens
        (edit m statement specifier) := by
  generalize sourceEq :
    "import D, \x7b\n  a, // first\n  storiesOf,\n  b as c, /* last */\n\x7d" ++
      " from '@storybook/react';\n" = source
  have checked : (Module.parse? .javascript source).any (fun m =>
      m.statements.any fun statement => statement.kind == .importStatement &&
        statement.children.any fun clause => clause.kind == .importClause &&
          bindsThree m clause
            ["D", ",", "a", ",", "storiesOf", ",", "b as c", ","]) = true := by
    rw [← sourceEq]
    decide +kernel
  obtain ⟨m, parsed, checked⟩ := (Option.any_eq_true _ _).1 checked
  obtain ⟨statement, isStatement, checked⟩ := List.any_eq_true.1 checked
  rw [Bool.and_eq_true, beq_iff_eq, List.any_eq_true] at checked
  obtain ⟨statementKind, clause, isClause, checked⟩ := checked
  rw [Bool.and_eq_true, beq_iff_eq] at checked
  obtain ⟨clauseKind, checked⟩ := checked
  unfold bindsThree at checked
  split at checked
  · rename_i name comma braces outer
    rw [Bool.and_eq_true, Bool.and_eq_true, beq_iff_eq, beq_iff_eq] at checked
    obtain ⟨⟨nameKind, bracesKind⟩, checked⟩ := checked
    split at checked
    · rename_i opening a first s second b third closing inner
      simp only [Bool.and_eq_true, beq_iff_eq, Bool.not_eq_true', List.all_eq_true,
        Bool.or_eq_true] at checked
      obtain ⟨⟨⟨⟨⟨unnamed, closingUnnamed⟩, specifiers⟩, sKind⟩, separated⟩, texts⟩ :=
        checked
      have isImport : IsImport m statement clause braces opening closing
          [a, first, s, second, b, third]
          [name, comma, a, first, s, second, b, third] :=
        ⟨isClause, clauseKind, bracesKind,
          ⟨inner, unnamed, closingUnnamed, fun node member named =>
            (specifiers node member).resolve_left (by rw [named]; decide)⟩,
          .withDefault outer nameKind, separated⟩
      obtain ⟨found, takesOut⟩ := edit_takesOut parsed isStatement statementKind isImport
        (by simp) sKind
      have text : m.text s = "storiesOf" := by
        simp only [List.map_cons, List.cons.injEq] at texts
        exact texts.2.2.2.2.1
      exact ⟨m, statement, braces, opening, closing, s, _, _, parsed, found, text, texts,
        takesOut⟩
    · contradiction
  · contradiction

end ImportRemoval
end StoryMigration
