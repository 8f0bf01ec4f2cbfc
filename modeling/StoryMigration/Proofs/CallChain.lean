import StoryMigration.Chain.Locate
import StoryMigration.Proofs.Tree

/-!
# Chains of calls

A chain is a base with calls of members around it, and every call is one link.
Unwinding an expression gives the base and the links from there outwards
exactly when it is such a chain.  A link that is well formed does one of three
things.
-/

namespace StoryMigration
namespace Chain

open Syntax

variable {m : Module} {localName : String}

/-- The expression is a chain of calls around a base, which is a root or a name:
every call of a member of a chain adds one link behind the others. -/
inductive Chained
    (m : Module)
    (localName : String) : Node → Node → List Link → Prop
  | base
      {node : Node}
      (isBase : isRoot m localName node = true ∨ node.kind = .identifier) :
      Chained m localName node node []
  | call
      {node callee receiver property base : Node}
      {links : List Link}
      (isCall : node.kind = .callExpression)
      (notRoot : isRoot m localName node = false)
      (calleeFound : node.child? .callee = some callee)
      (isMember : callee.kind = .memberExpression)
      (receiverFound : callee.child? .receiver = some receiver)
      (propertyFound : callee.child? .property = some property)
      (chained : Chained m localName receiver base links) :
      Chained m localName node base
        (links ++ [⟨m.text property, node, node.callArguments, property, []⟩])

theorem unwindReceiver_eq
    (children : List Node) :
    unwindReceiver m localName children =
      (children.find? (·.role = some .receiver)).bind (unwind m localName) := by
  induction children with
  | nil => rw [unwindReceiver, List.find?_nil, Option.bind_none]
  | cons child children childrenHypothesis =>
    obtain ⟨kind, role, span, below⟩ := child
    rw [unwindReceiver]
    split
    · rename_i isReceiver
      rw [List.find?_cons_of_pos (by simp [isReceiver]), Option.bind_some]
    · rename_i other
      rw [List.find?_cons_of_neg (by simp [other]), childrenHypothesis]

/-- A callee continues a chain as a member of it. -/
theorem unwindCallee_eq_some_iff
    {children : List Node}
    {base property : Node}
    {links : List Link} :
    unwindCallee m localName children = some (base, links, property) ↔
      ∃ callee receiver,
        children.find? (·.role = some .callee) = some callee ∧
          callee.kind = .memberExpression ∧
          callee.child? .receiver = some receiver ∧
          callee.child? .property = some property ∧
          unwind m localName receiver = some (base, links) := by
  induction children with
  | nil => simp [unwindCallee]
  | cons child children childrenHypothesis =>
    obtain ⟨kind, role, span, below⟩ := child
    rw [unwindCallee]
    by_cases isCallee : role = some .callee
    · rw [if_pos isCallee, List.find?_cons_of_pos (by simp [isCallee])]
      by_cases isMember : kind = .memberExpression
      · rw [if_pos (by simp [isMember]), unwindReceiver_eq]
        constructor
        · intro unwound
          split at unwound
          · rename_i receiverUnwound propertyFound
            rw [Option.some.injEq, Prod.mk.injEq, Prod.mk.injEq] at unwound
            obtain ⟨rfl, rfl, rfl⟩ := unwound
            obtain ⟨receiver, receiverFound, rest⟩ :=
              Option.bind_eq_some_iff.1 receiverUnwound
            exact ⟨_, receiver, rfl, isMember, receiverFound, propertyFound, rest⟩
          · contradiction
        · rintro ⟨callee, receiver, same, -, receiverFound, propertyFound, rest⟩
          rw [Option.some.injEq] at same
          subst same
          have receiverUnwound :
              (below.find? (·.role = some .receiver)).bind
                (unwind m localName) = some (base, links) :=
            Option.bind_eq_some_iff.2 ⟨receiver, receiverFound, rest⟩
          rw [receiverUnwound, propertyFound]
      · rw [if_neg (by simp [isMember])]
        constructor
        · intro unwound
          contradiction
        · rintro ⟨callee, receiver, same, isMember', -⟩
          rw [Option.some.injEq] at same
          rw [← same] at isMember'
          exact absurd isMember' isMember
    · rw [if_neg isCallee, List.find?_cons_of_neg (by simp [isCallee]),
        childrenHypothesis]

theorem unwind_of_base
    {node : Node}
    (isBase : isRoot m localName node = true ∨ node.kind = .identifier) :
    unwind m localName node = some (node, []) := by
  obtain ⟨kind, role, span, children⟩ := node
  rw [unwind, if_pos]
  rw [Bool.or_eq_true, beq_iff_eq]
  exact isBase

theorem unwind_of_call
    {node : Node}
    (notRoot : isRoot m localName node = false)
    (isCall : node.kind = .callExpression) :
    unwind m localName node =
      (unwindCallee m localName node.children).map fun chain =>
        (chain.1, chain.2.1 ++
          [⟨m.text chain.2.2, node, node.callArguments, chain.2.2, []⟩]) := by
  obtain ⟨kind, role, span, children⟩ := node
  have isCall : kind = .callExpression := isCall
  subst isCall
  rw [unwind, notRoot, Node.children_mk]
  simp only [Bool.false_or, beq_iff_eq, reduceCtorEq, if_false, if_true]
  cases unwindCallee m localName children with
  | none => rfl
  | some chain => rfl

/-- The search unwinds an expression to a base and links exactly when it is a
chain of them. -/
theorem unwind_eq_some_iff
    {expression base : Node}
    {links : List Link} :
    unwind m localName expression = some (base, links) ↔
      Chained m localName expression base links := by
  constructor
  · induction expression using Node.belowInduction generalizing links with
    | step expression belowHypothesis =>
      intro unwound
      by_cases isBase : isRoot m localName expression = true ∨
          expression.kind = .identifier
      · rw [unwind_of_base isBase, Option.some.injEq, Prod.mk.injEq] at unwound
        obtain ⟨rfl, rfl⟩ := unwound
        exact .base isBase
      · rw [not_or, Bool.not_eq_true] at isBase
        by_cases isCall : expression.kind = .callExpression
        · rw [unwind_of_call isBase.1 isCall] at unwound
          obtain ⟨⟨base', links', property⟩, calleeUnwound, same⟩ :=
            Option.map_eq_some_iff.1 unwound
          rw [Prod.mk.injEq] at same
          obtain ⟨rfl, rfl⟩ := same
          obtain ⟨callee, receiver, calleeFound, isMember, receiverFound,
            propertyFound, receiverUnwound⟩ :=
            unwindCallee_eq_some_iff.1 calleeUnwound
          have receiverBelow :=
            Node.child_mem_preorder (Node.child?_mem receiverFound)
          exact .call isCall isBase.1 calleeFound isMember receiverFound
            propertyFound (belowHypothesis callee (Node.child?_mem calleeFound)
              receiver receiverBelow receiverUnwound)
        · obtain ⟨kind, role, span, children⟩ := expression
          rw [unwind, if_neg (by simpa using isBase),
            if_neg (by simpa using isCall)] at unwound
          contradiction
  · intro chained
    induction chained with
    | base isBase => exact unwind_of_base isBase
    | call isCall notRoot calleeFound isMember receiverFound propertyFound _
        unwound =>
      rw [unwind_of_call notRoot isCall, Option.map_eq_some_iff]
      exact ⟨_, unwindCallee_eq_some_iff.2 ⟨_, _, calleeFound, isMember,
        receiverFound, propertyFound, unwound⟩, rfl⟩

/-- The base of a chain lies in the expression, and is a root or a name. -/
theorem Chained.base_mem
    {expression base : Node}
    {links : List Link}
    (chained : Chained m localName expression base links) :
    base ∈ expression.preorder ∧
      (isRoot m localName base = true ∨ base.kind = .identifier) := by
  induction chained with
  | base isBase => exact ⟨Node.self_mem_preorder _, isBase⟩
  | call _ _ calleeFound _ receiverFound _ _ chainHypothesis =>
    obtain ⟨baseBelow, isBase⟩ := chainHypothesis
    have receiverBelow :=
      Node.mem_preorder_of_child (Node.child?_mem calleeFound)
        (Node.child_mem_preorder (Node.child?_mem receiverFound))
    exact ⟨Node.mem_preorder_trans receiverBelow baseBelow, isBase⟩

/-- No comment belongs to a link before the whole fragment is known. -/
theorem Chained.comments_eq_nil
    {expression base : Node}
    {links : List Link}
    (chained : Chained m localName expression base links) :
    ∀ link ∈ links, link.comments = [] := by
  induction chained with
  | base => exact fun _ isLink => absurd isLink List.not_mem_nil
  | call _ _ _ _ _ _ _ chainHypothesis =>
    intro link isLink
    rcases List.mem_append.1 isLink with inner | last
    · exact chainHypothesis link inner
    · rw [List.mem_singleton.1 last]

/-! ## Well-formed links -/

namespace Link

theorem isDecorator_of_isAdd
    {link : Link}
    (isAdd : link.isAdd = true) :
    link.isDecorator = false ∧ link.isParameters = false := by
  unfold Link.isAdd at isAdd
  unfold Link.isDecorator Link.isParameters
  rw [beq_iff_eq.1 isAdd]
  exact ⟨rfl, rfl⟩

theorem isParameters_of_isDecorator
    {link : Link}
    (isDecorator : link.isDecorator = true) :
    link.isParameters = false := by
  unfold Link.isDecorator at isDecorator
  unfold Link.isParameters
  rw [beq_iff_eq.1 isDecorator]
  rfl

/-- A well-formed link adds a story with a name and something to render, or else
it adds decorators or parameters and has one argument. -/
theorem cases_of_isWellFormed
    {link : Link}
    (wellFormed : link.isWellFormed = true) :
    (link.isAdd = true ∧ link.isDecorator = false ∧ link.isParameters = false ∧
        ∃ name render rest, link.arguments = name :: render :: rest) ∨
      (link.isAdd = false ∧ link.isDecorator = true ∧
          link.isParameters = false ∨
        link.isAdd = false ∧ link.isDecorator = false ∧
          link.isParameters = true) ∧
        ∃ argument, link.arguments = [argument] := by
  unfold isWellFormed at wellFormed
  rw [Bool.and_eq_true, Bool.and_eq_true, Bool.or_eq_true, Bool.or_eq_true]
    at wellFormed
  obtain ⟨⟨method, -⟩, arguments⟩ := wellFormed
  by_cases isAdd : link.isAdd = true
  · obtain ⟨notDecorator, notParameters⟩ := isDecorator_of_isAdd isAdd
    rw [if_pos isAdd, Bool.and_eq_true, decide_eq_true_eq] at arguments
    refine .inl ⟨isAdd, notDecorator, notParameters, ?_⟩
    obtain ⟨name, rest, argumentsEq⟩ := List.exists_cons_of_length_pos
      (Nat.lt_of_lt_of_le Nat.zero_lt_two arguments.1)
    rw [argumentsEq, List.length_cons] at arguments
    obtain ⟨render, others, restEq⟩ := List.exists_cons_of_length_pos
      (Nat.le_of_succ_le_succ arguments.1)
    exact ⟨name, render, others, by rw [argumentsEq, restEq]⟩
  · rw [if_neg isAdd, beq_iff_eq] at arguments
    refine .inr ⟨?_, List.length_eq_one_iff.1 arguments⟩
    rw [Bool.not_eq_true] at isAdd
    rw [isAdd, or_iff_right Bool.false_ne_true] at method
    by_cases isDecorator : link.isDecorator = true
    · exact .inl ⟨isAdd, isDecorator, isParameters_of_isDecorator isDecorator⟩
    · exact .inr ⟨isAdd, Bool.not_eq_true _ ▸ isDecorator,
        method.resolve_left isDecorator⟩

end Link

end Chain
end StoryMigration
