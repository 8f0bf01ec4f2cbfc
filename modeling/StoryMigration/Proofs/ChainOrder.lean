import StoryMigration.Proofs.CallChain
import StoryMigration.Proofs.FragmentLinks
import StoryMigration.Proofs.ModuleLayout
import StoryMigration.Proofs.NodeCount

/-!
# The order of a chain

The methods of a chain are named one behind the other, and what occurs in its
base and in the arguments of its links occurs in different places.  A chain may
be written in place of the name at the base of another one: the result is a
chain on the base of the first, with the steps of both.
-/

namespace StoryMigration
namespace Chain

open Syntax

variable {m : Module} {localName : String}

/-! ## Methods one behind the other -/

theorem role_of_child?
    {node child : Node}
    {role : Role}
    (found : node.child? role = some child) :
    child.role = some role := by
  simpa using List.find?_some found

/-- The methods of a chain are named inside it, each behind the one before. -/
theorem Chained.inTurn
    {expression base : Node}
    {links : List Link}
    (chained : Chained m localName expression base links)
    (inOrder : expression.InOrder) :
    (∀ link ∈ links, expression.start ≤ link.property.start ∧
        link.property.stop ≤ expression.stop) ∧
      links.Pairwise fun a b => a.property.stop ≤ b.property.start := by
  induction chained with
  | base => exact ⟨fun _ isLink => absurd isLink List.not_mem_nil, .nil⟩
  | @call node callee receiver property base links isCall notRoot calleeFound
      isMember receiverFound propertyFound chained chainedHypothesis =>
    have calleeBelow := Node.child_mem_preorder (Node.child?_mem calleeFound)
    have calleeInOrder := inOrder.of_mem calleeBelow
    have isReceiver := Node.child?_mem receiverFound
    have isProperty := Node.child?_mem propertyFound
    have before : receiver.stop ≤ property.start :=
      inOrder.members callee calleeBelow isMember receiver isReceiver property
        isProperty (role_of_child? receiverFound) (role_of_child? propertyFound)
    obtain ⟨inside, inTurn⟩ :=
      chainedHypothesis (calleeInOrder.of_mem (Node.child_mem_preorder isReceiver))
    have calleeInside := inOrder.nested.inside calleeBelow
    have receiverInside :=
      calleeInOrder.nested.inside (Node.child_mem_preorder isReceiver)
    have propertyInside :=
      calleeInOrder.nested.inside (Node.child_mem_preorder isProperty)
    constructor
    · intro link isLink
      rcases List.mem_append.1 isLink with earlier | last
      · obtain ⟨start, stop⟩ := inside link earlier
        omega
      · rw [List.mem_singleton.1 last]
        show node.start ≤ property.start ∧ property.stop ≤ node.stop
        omega
    · refine List.pairwise_append.2 ⟨inTurn, List.pairwise_singleton _ _, ?_⟩
      intro link earlier last isLast
      rw [List.mem_singleton.1 isLast]
      exact Nat.le_trans (inside link earlier).2 before

/-! ## Occurrences in a chain -/

theorem countIn_callArguments_le
    (p : Node → Bool)
    {call arguments : Node}
    (found : call.child? .arguments = some arguments) :
    countIn p call.callArguments ≤ countIn p [arguments] := by
  rw [Node.callArguments, found]
  exact Nat.le_trans (countIn_le_of_sublist p arguments.parts_sublist)
    (countIn_children_le p arguments)

/-- What counts in the base and in the arguments of a chain counts in it. -/
theorem Chained.countIn_le
    (p : Node → Bool)
    {expression base : Node}
    {links : List Link}
    (chained : Chained m localName expression base links) :
    countIn p [base] + countIn p (links.flatMap (·.arguments)) ≤
      countIn p [expression] := by
  induction chained with
  | base => exact Nat.le_refl _
  | @call node callee receiver property base links _ _ calleeFound _
      receiverFound _ _ chainedHypothesis =>
    have isCallee := Node.child?_mem calleeFound
    have receiverLe :=
      countIn_child_le p (Node.child?_mem receiverFound)
    rw [List.flatMap_append, List.flatMap_singleton, countIn_append]
    show countIn p [base] + (countIn p (links.flatMap (·.arguments)) +
      countIn p node.callArguments) ≤ countIn p [node]
    cases argumentsFound : node.child? .arguments with
    | none =>
      have calleeLe := countIn_child_le p isCallee
      have noArguments : node.callArguments = [] := by
        rw [Node.callArguments, argumentsFound]
        rfl
      rw [noArguments, countIn_nil]
      omega
    | some arguments =>
      have different : callee ≠ arguments := by
        rintro rfl
        have role := role_of_child? calleeFound
        rw [role_of_child? argumentsFound] at role
        cases role
      have both := Nat.le_trans
        (countIn_pair_le p isCallee (Node.child?_mem argumentsFound) different)
        (countIn_children_le p node)
      have argumentsLe := countIn_callArguments_le p argumentsFound
      omega

/-! ## One chain in place of the base of another -/

/-- The same node in another part of a parent, or in none. -/
def reroled (node : Node) (role : Option Role) : Node :=
  .mk node.kind role node.span node.children

mutual

/-- A chain with an expression in place of the name at its base. -/
def graft (inner : Node) : Node → Node
  | .mk kind role span children =>
    if kind = .identifier then reroled inner role
    else if kind = .callExpression then
      .mk kind role span (graftAt inner .callee children)
    else .mk kind role span (graftAt inner .receiver children)

/-- Children of which the first that plays a part has an expression in place of
the name at its base. -/
def graftAt (inner : Node) (part : Role) : List Node → List Node
  | [] => []
  | .mk kind role span children :: rest =>
    if role = some part then graft inner (.mk kind role span children) :: rest
    else .mk kind role span children :: graftAt inner part rest

end

@[simp] theorem role_graft
    (inner node : Node) :
    (graft inner node).role = node.role := by
  obtain ⟨kind, role, span, children⟩ := node
  rw [graft]
  split
  · rfl
  · split <;> rfl

theorem find?_graftAt
    (inner : Node)
    (part : Role)
    (children : List Node) :
    (graftAt inner part children).find? (·.role = some part) =
      (children.find? (·.role = some part)).map (graft inner) := by
  induction children with
  | nil => rw [graftAt, List.find?_nil, Option.map_none]
  | cons child children childrenHypothesis =>
    obtain ⟨kind, role, span, below⟩ := child
    rw [graftAt]
    split
    · rename_i isPart
      rw [List.find?_cons_of_pos (by simp [isPart]),
        List.find?_cons_of_pos (by simp [isPart]), Option.map_some]
    · rename_i other
      rw [List.find?_cons_of_neg (by simp [other]),
        List.find?_cons_of_neg (by simp [other]), childrenHypothesis]

theorem find?_graftAt_of_ne
    (inner : Node)
    {part other : Role}
    (different : other ≠ part)
    (children : List Node) :
    (graftAt inner part children).find? (·.role = some other) =
      children.find? (·.role = some other) := by
  induction children with
  | nil => rw [graftAt]
  | cons child children childrenHypothesis =>
    obtain ⟨kind, role, span, below⟩ := child
    rw [graftAt]
    split
    · rename_i isPart
      have missed : some part ≠ some other := fun same =>
        different (Option.some.inj same).symm
      rw [List.find?_cons_of_neg (by simp [isPart, missed]),
        List.find?_cons_of_neg (by simp [isPart, missed])]
    · rw [List.find?_cons, List.find?_cons, childrenHypothesis]

theorem graft_of_name
    {inner node : Node}
    (isName : node.kind = .identifier) :
    graft inner node = reroled inner node.role := by
  obtain ⟨kind, role, span, children⟩ := node
  have isName : kind = .identifier := isName
  rw [graft, if_pos isName]
  rfl

/-- A call or a member has the chain grafted into the part that carries it. -/
theorem child?_graft
    {inner node child : Node}
    {part : Role}
    (carries : node.kind = .callExpression ∧ part = .callee ∨
      node.kind = .memberExpression ∧ part = .receiver)
    (found : node.child? part = some child) :
    (graft inner node).kind = node.kind ∧
      (graft inner node).child? part = some (graft inner child) ∧
      ∀ other, other ≠ part →
        (graft inner node).child? other = node.child? other := by
  obtain ⟨kind, role, span, children⟩ := node
  have grafted : graft inner (.mk kind role span children) =
      .mk kind role span (graftAt inner part children) := by
    rw [graft]
    rcases carries with ⟨isCall, rfl⟩ | ⟨isMember, rfl⟩
    · have isCall : kind = .callExpression := isCall
      rw [if_neg (by rw [isCall]; decide), if_pos isCall]
    · have isMember : kind = .memberExpression := isMember
      rw [if_neg (by rw [isMember]; decide), if_neg (by rw [isMember]; decide)]
  rw [grafted]
  refine ⟨rfl, ?_, fun other different => ?_⟩
  · rw [Node.child?, Node.children_mk, find?_graftAt]
    rw [Node.child?, Node.children_mk] at found
    rw [found, Option.map_some]
  · exact find?_graftAt_of_ne inner different children

/-- What a link does: its method and its arguments. -/
def Link.step (link : Link) : String × List Node :=
  (link.method, link.arguments)

theorem isRoot_reroled
    (node : Node)
    (role : Option Role) :
    isRoot m localName (reroled node role) = isRoot m localName node := by
  cases node
  rfl

/-- A chain is the same in another part of a parent. -/
theorem Chained.reroled
    {expression base : Node}
    {links : List Link}
    (chained : Chained m localName expression base links)
    (role : Option Role) :
    ∃ part others, Chained m localName (Chain.reroled expression role)
        (Chain.reroled base part) others ∧
      others.map Link.step = links.map Link.step := by
  cases chained with
  | base isBase =>
    refine ⟨role, [], .base ?_, rfl⟩
    rw [isRoot_reroled]
    exact isBase
  | @call _ callee receiver property base links isCall notRoot calleeFound
      isMember receiverFound propertyFound chained =>
    have sameBase : Chain.reroled base base.role = base := by
      cases base
      rfl
    have moved : Chained m localName (Chain.reroled expression role) base
        (links ++ [⟨m.text property, Chain.reroled expression role,
          expression.callArguments, property, []⟩]) :=
      .call isCall notRoot calleeFound isMember receiverFound propertyFound
        chained
    refine ⟨base.role, _, sameBase.symm ▸ moved, ?_⟩
    rw [List.map_append, List.map_append]
    rfl

/-- A chain in place of the name at the base of another one has the base of the
first and the steps of both. -/
theorem Chained.graft
    {inner root outer name : Node}
    {innerLinks links : List Link}
    (innerChained : Chained m localName inner root innerLinks)
    (chained : Chained m localName outer name links)
    (isName : name.kind = .identifier) :
    ∃ part others, Chained m localName (Chain.graft inner outer)
        (Chain.reroled root part) others ∧
      others.map Link.step = (innerLinks ++ links).map Link.step := by
  induction chained with
  | base =>
    rw [graft_of_name isName, List.append_nil]
    exact innerChained.reroled _
  | @call node callee receiver property base links isCall notRoot calleeFound
      isMember receiverFound propertyFound chained chainedHypothesis =>
    obtain ⟨part, others, grafted, sameSteps⟩ := chainedHypothesis isName
    obtain ⟨nodeKind, newCallee, nodeOther⟩ :=
      @child?_graft inner node callee .callee (.inl ⟨isCall, rfl⟩) calleeFound
    obtain ⟨calleeKind, newReceiver, calleeOther⟩ :=
      @child?_graft inner callee receiver .receiver (.inr ⟨isMember, rfl⟩)
        receiverFound
    have newProperty := calleeOther .property (by decide)
    have newArguments := nodeOther .arguments (by decide)
    have stillNoRoot : isRoot m localName (Chain.graft inner node) = false := by
      have noName : ((Chain.graft inner callee).kind == Kind.identifier) = false := by
        rw [calleeKind, isMember]
        rfl
      rw [isRoot, newCallee]
      simp only [noName, Bool.false_and, Bool.and_false]
    refine ⟨part, _, .call (nodeKind.trans isCall) stillNoRoot newCallee
      (calleeKind.trans isMember) newReceiver (newProperty.trans propertyFound)
      grafted, ?_⟩
    have sameArguments : (Chain.graft inner node).callArguments =
        node.callArguments := by
      rw [Node.callArguments, Node.callArguments, newArguments]
    rw [← List.append_assoc, List.map_append, sameSteps,
      @List.map_append _ _ _ (innerLinks ++ links), sameArguments]
    rfl

end Chain
end StoryMigration
