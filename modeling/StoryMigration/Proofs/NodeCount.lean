import StoryMigration.Syntax.Node

/-!
# Counting nodes

How many nodes at and below some nodes have a property.  A part of a list
counts no more than the list, and if it counts less, then some node outside the
part counts.
-/

namespace StoryMigration
namespace Syntax

/-- How many of the nodes at and below some nodes have a property. -/
def countIn (p : Node → Bool) (nodes : List Node) : Nat :=
  (nodes.flatMap Node.preorder).countP p

@[simp] theorem countIn_nil
    (p : Node → Bool) :
    countIn p [] = 0 := rfl

theorem countIn_append
    (p : Node → Bool)
    (front back : List Node) :
    countIn p (front ++ back) = countIn p front + countIn p back := by
  unfold countIn
  rw [List.flatMap_append, List.countP_append]

theorem countIn_cons
    (p : Node → Bool)
    (node : Node)
    (nodes : List Node) :
    countIn p (node :: nodes) = countIn p [node] + countIn p nodes :=
  countIn_append p [node] nodes

theorem countIn_singleton
    (p : Node → Bool)
    (node : Node) :
    countIn p [node] = node.preorder.countP p := by
  unfold countIn
  rw [List.flatMap_singleton]

/-- A node counts by itself and through its children. -/
theorem countP_preorder
    (p : Node → Bool)
    (node : Node) :
    node.preorder.countP p =
      countIn p node.children + if p node = true then 1 else 0 := by
  rw [Node.preorder_eq, List.countP_cons]
  rfl

theorem countIn_pos
    {p : Node → Bool}
    {node : Node} :
    0 < countIn p [node] ↔ ∃ inner ∈ node.preorder, p inner = true := by
  rw [countIn_singleton, List.countP_pos_iff]

theorem countIn_le_of_sublist
    (p : Node → Bool)
    {some all : List Node}
    (sublist : some.Sublist all) :
    countIn p some ≤ countIn p all := by
  induction sublist with
  | slnil => exact Nat.le_refl _
  | cons node _ sublistHypothesis =>
    rw [countIn_cons]
    omega
  | @cons_cons some all node _ sublistHypothesis =>
    rw [countIn_cons p node some, countIn_cons p node all]
    omega

/-- Children count no more than their parent. -/
theorem countIn_children_le
    (p : Node → Bool)
    (node : Node) :
    countIn p node.children ≤ countIn p [node] := by
  rw [countIn_singleton, countP_preorder]
  exact Nat.le_add_right _ _

theorem countIn_child_le
    (p : Node → Bool)
    {node child : Node}
    (isChild : child ∈ node.children) :
    countIn p [child] ≤ countIn p [node] :=
  Nat.le_trans (countIn_le_of_sublist p (List.singleton_sublist.2 isChild))
    (countIn_children_le p node)

/-- Two nodes count at most as much as a list that both are in. -/
theorem countIn_pair_le
    (p : Node → Bool)
    {first second : Node}
    {nodes : List Node}
    (isFirst : first ∈ nodes)
    (isSecond : second ∈ nodes)
    (different : first ≠ second) :
    countIn p [first] + countIn p [second] ≤ countIn p nodes := by
  obtain ⟨front, back, rfl⟩ := List.append_of_mem isFirst
  have isOther : second ∈ front ++ back := by
    rw [List.mem_append, List.mem_cons] at isSecond
    rw [List.mem_append]
    exact isSecond.imp_right fun either => either.resolve_left different.symm
  have rest := countIn_le_of_sublist p (List.singleton_sublist.2 isOther)
  rw [countIn_append] at rest
  rw [countIn_append, countIn_cons p first back]
  omega

/-- If a list counts more than a part of it, a node outside the part counts. -/
theorem exists_outside
    {p : Node → Bool}
    {some all : List Node}
    (sublist : some.Sublist all)
    (more : countIn p some < countIn p all) :
    ∃ front node back, all = front ++ node :: back ∧
      some.Sublist (front ++ back) ∧ 0 < countIn p [node] := by
  induction sublist with
  | slnil => exact absurd more (Nat.lt_irrefl _)
  | @cons some all node sublist sublistHypothesis =>
    by_cases counts : 0 < countIn p [node]
    · exact ⟨[], node, all, rfl, sublist, counts⟩
    · rw [countIn_cons] at more
      obtain ⟨front, other, back, rfl, stays, otherCounts⟩ :=
        sublistHypothesis (by omega)
      exact ⟨node :: front, other, back, rfl, stays.cons node, otherCounts⟩
  | @cons_cons some all node sublist sublistHypothesis =>
    rw [countIn_cons p node some, countIn_cons p node all] at more
    obtain ⟨front, other, back, rfl, stays, otherCounts⟩ :=
      sublistHypothesis (by omega)
    exact ⟨node :: front, other, back, rfl, stays.cons_cons node, otherCounts⟩

/-- Nodes of which each counts are no more than what they count. -/
theorem length_le_countIn
    {p : Node → Bool}
    {nodes : List Node}
    (each : ∀ node ∈ nodes, 0 < countIn p [node]) :
    nodes.length ≤ countIn p nodes := by
  induction nodes with
  | nil => exact Nat.le_refl _
  | cons node nodes nodesHypothesis =>
    have first := each node List.mem_cons_self
    have rest := nodesHypothesis fun other member =>
      each other (List.mem_cons_of_mem _ member)
    rw [List.length_cons, countIn_cons]
    omega

/-- They are as many exactly when each of them counts once. -/
theorem countIn_eq_length_iff
    {p : Node → Bool}
    {nodes : List Node}
    (each : ∀ node ∈ nodes, 0 < countIn p [node]) :
    countIn p nodes = nodes.length ↔ ∀ node ∈ nodes, countIn p [node] = 1 := by
  induction nodes with
  | nil => simp
  | cons node nodes nodesHypothesis =>
    have first := each node List.mem_cons_self
    have restEach (other : Node) (member : other ∈ nodes) :=
      each other (List.mem_cons_of_mem _ member)
    have rest := length_le_countIn restEach
    rw [List.forall_mem_cons, ← nodesHypothesis restEach, List.length_cons,
      countIn_cons]
    omega

end Syntax
end StoryMigration
