import Mathlib.Data.List.Basic
import StoryMigration.Proofs.Tree

/-!
# Traversals with a stack

A traversal takes the top node from a stack, yields it and puts its children on
the stack, the last one first.  What it has yielded and the trees on its stack
are together always the nodes of the whole tree in preorder, and every round
leaves one node less on the stack.  So it ends, and has then yielded the node at
every place of the tree once: a node ahead of its children, and children from
left to right.
-/

namespace StoryMigration
namespace Syntax
namespace Node

/-! ## Rounds -/

/-- The stack with some nodes put on it, one after another. -/
def pushAll (nodes stack : List Node) : List Node :=
  nodes.foldl (fun pushed node => node :: pushed) stack

/-- Nodes that are pushed from the last one on are taken from the first one on. -/
theorem pushAll_reverse
    (nodes stack : List Node) :
    pushAll nodes.reverse stack = nodes ++ stack := by
  rw [pushAll, List.foldl_reverse]
  induction nodes with
  | nil => rfl
  | cons node nodes nodesHypothesis =>
    rw [List.foldr_cons, nodesHypothesis, List.cons_append]

/-- A traversal under way: the nodes that it has yielded, and the stack of those
whose trees are still to be visited, the top one in front. -/
structure Traversal where
  yielded : List Node
  stack : List Node

namespace Traversal

/-- A traversal that has yielded nothing yet. -/
def start (node : Node) : Traversal := ⟨[], [node]⟩

/-- One round: the top node is yielded, and its children are pushed. -/
inductive Round : Traversal → Traversal → Prop
  | visit
      (yielded : List Node)
      (node : Node)
      (stack : List Node) :
      Round ⟨yielded, node :: stack⟩
        ⟨yielded ++ [node], pushAll node.children.reverse stack⟩

/-- A number of rounds, one behind the other. -/
inductive Rounds : Nat → Traversal → Traversal → Prop
  | none
      (now : Traversal) :
      Rounds 0 now now
  | more
      {count : Nat}
      {now next later : Traversal}
      (round : Round now next)
      (rounds : Rounds count next later) :
      Rounds (count + 1) now later

/-- All nodes of a traversal: those that it has yielded, and behind them those
of the trees on its stack. -/
def nodes (now : Traversal) : List Node :=
  now.yielded ++ preorderAll now.stack

/-- Number of the nodes that are still to be yielded. -/
def pending (now : Traversal) : Nat := (preorderAll now.stack).length

variable {now next later : Traversal} {count : Nat}

theorem preorderAll_append
    (front back : List Node) :
    preorderAll (front ++ back) = preorderAll front ++ preorderAll back := by
  rw [preorderAll_eq_flatMap, preorderAll_eq_flatMap, preorderAll_eq_flatMap,
    List.flatMap_append]

/-- A tree is its top node and the trees of its children. -/
theorem preorderAll_cons
    (node : Node)
    (stack : List Node) :
    preorderAll (node :: stack) = node :: preorderAll (node.children ++ stack) := by
  rw [preorderAll, preorder_eq, preorderAll_append, List.cons_append,
    preorderAll_eq_flatMap node.children]

theorem Round.nodes_eq
    (round : Round now next) :
    next.nodes = now.nodes := by
  obtain ⟨yielded, node, stack⟩ := round
  rw [nodes, nodes, pushAll_reverse, preorderAll_cons, List.append_assoc,
    List.singleton_append]

theorem Round.pending_eq
    (round : Round now next) :
    next.pending + 1 = now.pending := by
  obtain ⟨yielded, node, stack⟩ := round
  rw [pending, pending, pushAll_reverse, preorderAll_cons, List.length_cons]

/-- Nothing is pending on an empty stack only. -/
theorem pending_eq_zero_iff :
    now.pending = 0 ↔ now.stack = [] := by
  obtain ⟨yielded, stack⟩ := now
  cases stack with
  | nil => exact iff_of_true rfl rfl
  | cons node stack =>
    rw [pending, preorderAll_cons]
    simp

theorem Rounds.nodes_eq
    (rounds : Rounds count now later) :
    later.nodes = now.nodes := by
  induction rounds with
  | none now => rfl
  | more round rounds roundsHypothesis =>
    rw [roundsHypothesis, round.nodes_eq]

theorem Rounds.pending_eq
    (rounds : Rounds count now later) :
    later.pending + count = now.pending := by
  induction rounds with
  | none now => rfl
  | more round rounds roundsHypothesis =>
    rw [← round.pending_eq, ← roundsHypothesis, Nat.add_assoc]

/-- There is a next round for as long as a node is pending. -/
theorem exists_rounds
    (enough : count ≤ now.pending) :
    ∃ later, Rounds count now later := by
  induction count generalizing now with
  | zero => exact ⟨now, .none now⟩
  | succ count countHypothesis =>
    obtain ⟨yielded, stack⟩ := now
    cases stack with
    | nil => exact absurd enough (Nat.not_succ_le_zero count)
    | cons node stack =>
      have round := Round.visit yielded node stack
      have left := round.pending_eq
      obtain ⟨later, rounds⟩ := @countHypothesis
        ⟨yielded ++ [node], pushAll node.children.reverse stack⟩ (by omega)
      exact ⟨later, .more round rounds⟩

/-- What some rounds yield are the first nodes in preorder. -/
theorem Rounds.yielded_eq_take
    {node : Node}
    (rounds : Rounds count (start node) later) :
    later.yielded = node.preorder.take count := by
  have whole : later.yielded ++ preorderAll later.stack = node.preorder := by
    rw [← nodes, rounds.nodes_eq, nodes, start, List.nil_append, preorderAll,
      preorderAll, List.append_nil]
  have lengths := congrArg List.length whole
  have left := rounds.pending_eq
  rw [pending, pending, start, preorderAll, preorderAll, List.append_nil] at left
  rw [List.length_append] at lengths
  rw [← whole, List.take_left' (by omega)]

end Traversal

/-- Traversing up to a number of nodes yields so many in preorder. -/
theorem visitFrom_eq_take
    (count : Nat)
    (stack : List Node) :
    visitFrom count stack = (preorderAll stack).take count := by
  induction count generalizing stack with
  | zero => rfl
  | succ count countHypothesis =>
    cases stack with
    | nil => rfl
    | cons node stack =>
      rw [visitFrom, countHypothesis, Traversal.preorderAll_cons,
        List.take_succ_cons]

/-- Traversing with a stack yields what recursion lists. -/
theorem visit_eq_preorder
    (node : Node) :
    node.visit = node.preorder := by
  rw [visit, visitFrom_eq_take, preorderAll, preorderAll, List.append_nil, size,
    List.take_length]

/-! ## Places in a tree -/

/-- The node at the end of a way down, which names the children passed by their
positions. -/
def below? : Node → List Nat → Option Node
  | node, [] => some node
  | node, position :: way =>
    node.children[position]?.bind fun child => child.below? way

mutual

/-- The ways to all nodes of a tree: to itself, and through its children from
left to right. -/
def ways : Node → List (List Nat)
  | mk _ _ _ children => [] :: waysAll 0 children

/-- The ways through several children, the first of which has a given position. -/
def waysAll : Nat → List Node → List (List Nat)
  | _, [] => []
  | position, node :: rest =>
    (ways node).map (position :: ·) ++ waysAll (position + 1) rest

end

theorem waysAll_eq_flatMap
    (position : Nat)
    (nodes : List Node) :
    waysAll position nodes =
      (nodes.zipIdx position).flatMap fun child =>
        child.1.ways.map (child.2 :: ·) := by
  induction nodes generalizing position with
  | nil => rw [waysAll]; rfl
  | cons node nodes nodesHypothesis =>
    rw [waysAll, nodesHypothesis, List.zipIdx_cons, List.flatMap_cons]

theorem ways_eq
    (node : Node) :
    node.ways = [] :: (node.children.zipIdx).flatMap fun child =>
      child.1.ways.map (child.2 :: ·) := by
  cases node with
  | mk kind role span children => rw [ways, children_mk, waysAll_eq_flatMap]

/-- The ways of a tree are those that lead to a node of it. -/
theorem mem_ways_iff
    {node : Node}
    {way : List Nat} :
    way ∈ node.ways ↔ (node.below? way).isSome = true := by
  induction way generalizing node with
  | nil =>
    rw [ways_eq, below?, Option.isSome_some]
    exact iff_of_true List.mem_cons_self rfl
  | cons position way wayHypothesis =>
    rw [ways_eq, below?]
    simp only [List.mem_cons, reduceCtorEq, List.mem_flatMap, List.mem_map,
      List.cons.injEq, false_or, Prod.exists, List.mem_zipIdx_iff_getElem?]
    constructor
    · rintro ⟨child, _, isChild, _, isWay, rfl, rfl⟩
      rw [isChild, Option.bind_some]
      exact wayHypothesis.1 isWay
    · intro leads
      obtain ⟨inner, leads⟩ := Option.isSome_iff_exists.1 leads
      obtain ⟨child, isChild, further⟩ := Option.bind_eq_some_iff.1 leads
      refine ⟨child, position, isChild, way, wayHypothesis.2 ?_, rfl, rfl⟩
      rw [further, Option.isSome_some]

/-- At the ends of the ways are the nodes in preorder. -/
theorem map_below?_ways
    (node : Node) :
    node.ways.map node.below? = node.preorder.map some := by
  induction node using childInduction with
  | step node childHypothesis =>
    have ofChild : ∀ child ∈ node.children.zipIdx,
        (child.1.ways.map (child.2 :: ·)).map node.below? =
          child.1.preorder.map some := by
      intro child isChild
      have isThere := List.mem_zipIdx_iff_getElem?.1 isChild
      rw [← childHypothesis child.1 (List.mem_of_getElem? isThere), List.map_map]
      refine List.map_congr_left fun way _ => ?_
      rw [Function.comp_apply, below?, isThere, Option.bind_some]
    rw [ways_eq, preorder_eq, List.map_cons, List.map_cons, below?,
      List.map_flatMap, List.map_flatMap]
    congr 1
    rw [List.flatMap_congr ofChild]
    conv_rhs => rw [← List.zipIdx_map_fst 0 node.children, List.flatMap_map]

/-- A way comes ahead of the ways that go on from it and of those to its right. -/
theorem ways_inTurn
    (node : Node) :
    node.ways.Pairwise (· < ·) := by
  induction node using childInduction with
  | step node childHypothesis =>
    rw [ways_eq, List.pairwise_cons, List.pairwise_flatMap]
    refine ⟨fun way isWay => ?_, fun child isChild => ?_, ?_⟩
    · obtain ⟨child, -, isWay⟩ := List.mem_flatMap.1 isWay
      obtain ⟨further, -, rfl⟩ := List.mem_map.1 isWay
      exact List.nil_lt_cons _ _
    · have isThere := List.mem_zipIdx_iff_getElem?.1 isChild
      rw [List.pairwise_map]
      refine (childHypothesis child.1 (List.mem_of_getElem? isThere)).imp ?_
      exact List.cons_lt_cons_self.2
    · have inTurn : (node.children.zipIdx).Pairwise fun a b => a.2 < b.2 := by
        rw [← List.pairwise_map, List.zipIdx_map_snd]
        exact List.pairwise_lt_range'
      refine inTurn.imp fun before way isWay other isOther => ?_
      obtain ⟨_, -, rfl⟩ := List.mem_map.1 isWay
      obtain ⟨_, -, rfl⟩ := List.mem_map.1 isOther
      exact .rel before

/-- A traversal in rounds ends, namely after as many rounds as the tree has
nodes.  It has then yielded the node at the end of every way down the tree once,
a node ahead of those below it and to its right, as the recursion lists them. -/
theorem traversal_yields_every_place_once
    (node : Node) :
    (∀ count later, Traversal.Rounds count (.start node) later →
      count ≤ node.size ∧
      later.yielded = visitFrom count [node] ∧
      later.yielded = node.preorder.take count ∧
      (later.stack = [] ↔ count = node.size)) ∧
    (∃ last, Traversal.Rounds node.size (.start node) last ∧
      last.yielded = node.visit) ∧
    node.visit = node.preorder ∧
    ∃ places : List (List Nat),
      places.Pairwise (· < ·) ∧
      (∀ place, place ∈ places ↔ (node.below? place).isSome = true) ∧
      node.visit.map some = places.map node.below? := by
  have all : (Traversal.start node).pending = node.size := by
    rw [Traversal.pending, Traversal.start, preorderAll, preorderAll,
      List.append_nil, size]
  have yields {count : Nat} {later : Traversal}
      (rounds : Traversal.Rounds count (.start node) later) :
      later.yielded = visitFrom count [node] := by
    rw [rounds.yielded_eq_take, visitFrom_eq_take, preorderAll, preorderAll,
      List.append_nil]
  refine ⟨fun count later rounds => ?_, ?_, visit_eq_preorder node,
    node.ways, ways_inTurn node, fun place => mem_ways_iff, ?_⟩
  · have left := rounds.pending_eq
    rw [all] at left
    refine ⟨by omega, yields rounds, rounds.yielded_eq_take, ?_⟩
    rw [← Traversal.pending_eq_zero_iff]
    omega
  · obtain ⟨last, rounds⟩ := Traversal.exists_rounds (Nat.le_of_eq all.symm)
    exact ⟨last, rounds, yields rounds⟩
  · rw [visit_eq_preorder, map_below?_ways]

end Node
end Syntax
end StoryMigration
