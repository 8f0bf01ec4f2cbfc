import StoryMigration.Chain.Locate
import StoryMigration.Proofs.Fallible
import StoryMigration.Proofs.Tree

/-!
# Exported names

Where the named exports of a module come from.  All of them are names that the
module binds or refers to, but for the outer names of export specifiers and the
names of declarations that are written as something else than an identifier.
-/

namespace StoryMigration
namespace Chain

open Syntax Fallible

variable {m : Module}

/-! ## Names in patterns -/

namespace Exports

theorem mem_allOf
    {nodes : List Node}
    {name : Node} :
    name ∈ allOf nodes ↔ ∃ node ∈ nodes, name ∈ patternNames node := by
  induction nodes with
  | nil => simp [allOf]
  | cons node nodes nodesHypothesis =>
    rw [allOf, List.mem_append, nodesHypothesis, List.exists_mem_cons_iff]

theorem mem_of_mem_firstOf
    {role : Role}
    {nodes : List Node}
    {name : Node}
    (member : name ∈ firstOf role nodes) :
    ∃ node ∈ nodes, name ∈ patternNames node := by
  induction nodes with
  | nil => exact absurd member List.not_mem_nil
  | cons node nodes nodesHypothesis =>
    rw [firstOf] at member
    split at member
    · exact ⟨node, List.mem_cons_self, member⟩
    · obtain ⟨other, isNode, below⟩ := nodesHypothesis member
      exact ⟨other, List.mem_cons_of_mem _ isNode, below⟩

/-- A name that a pattern binds is an identifier below it. -/
theorem patternNames_spec
    {pattern name : Node}
    (member : name ∈ patternNames pattern) :
    name ∈ pattern.preorder ∧ Module.isReference name.kind = true := by
  induction pattern using Node.childInduction with
  | step pattern childHypothesis =>
    have inChild
        (below : ∃ child ∈ pattern.children, name ∈ patternNames child) :
        name ∈ pattern.preorder ∧ Module.isReference name.kind = true := by
      obtain ⟨child, isChild, isName⟩ := below
      obtain ⟨inside, refers⟩ := childHypothesis child isChild isName
      exact ⟨Node.mem_preorder_of_child isChild inside, refers⟩
    obtain ⟨kind, role, span, children⟩ := pattern
    unfold patternNames at member
    split at member
    case h_1 | h_2 =>
      rw [List.mem_singleton.1 member]
      exact ⟨Node.self_mem_preorder _, rfl⟩
    case h_3 | h_4 | h_5 => exact inChild (mem_of_mem_firstOf member)
    case h_6 | h_7 | h_8 => exact inChild (mem_allOf.1 member)
    case h_9 => exact absurd member List.not_mem_nil

/-! ## Where names come from -/

/-- The export specifiers of a statement. -/
def specifiersOf (statement : Node) : List Node :=
  (statement.namedChildren.filter (·.kind == .exportClause)).flatMap
    fun clause => clause.namedChildren.filter (·.kind == .exportSpecifier)

/-- An export that is not written as an identifier: by a specifier, such as one
with a string literal, or by a declaration. -/
inductive Unwritten (m : Module) (statement : Node) : Text → Prop
  | specifier
      {specifier : Node}
      {name : Text}
      (isSpecifier : specifier ∈ specifiersOf statement)
      (read : exportedName m specifier = .ok name)
      (noReference : ∀ outer,
        (specifier.child? .rename <|> specifier.child? .name) = some outer →
          Module.isReference outer.kind = false) :
      Unwritten m statement name
  | declaration
      {declaration name : Node}
      (isDeclaration : statement.child? .declaration = some declaration)
      (isName : declaration.child? .name = some name)
      (noReference : Module.isReference name.kind = false) :
      Unwritten m statement (.ofString (m.text name))

theorem named_foldl_append
    (start : Exports)
    (parts : List Exports) :
    (parts.foldl append start).named =
      start.named ++ parts.flatMap (·.named) := by
  induction parts generalizing start with
  | nil => simp
  | cons part parts partsHypothesis =>
    rw [List.foldl_cons, partsHypothesis, List.flatMap_cons, ← List.append_assoc]
    rfl

theorem mem_identifiers
    {node : Node}
    (below : node ∈ m.tree.preorder)
    (refers : Module.isReference node.kind = true) :
    m.text node ∈ m.identifiers m.tree :=
  List.mem_map_of_mem (List.mem_filter.2 ⟨below, refers⟩)

/-- A declared name is an identifier of the module, unless it is the name of a
declaration and not written as one. -/
theorem declaredName_cases
    {statement declaration name : Node}
    (below : statement ∈ m.tree.preorder)
    (isDeclaration : statement.child? .declaration = some declaration)
    (declared : name ∈ declaredNames declaration) :
    m.text name ∈ m.identifiers m.tree ∨
      Unwritten m statement (.ofString (m.text name)) := by
  have declarationBelow : declaration ∈ m.tree.preorder :=
    Node.mem_preorder_trans below
      (Node.child_mem_preorder (Node.child?_mem isDeclaration))
  unfold declaredNames at declared
  split at declared
  · obtain ⟨declarator, isDeclarator, declared⟩ := List.mem_flatMap.1 declared
    have declaratorBelow : declarator ∈ m.tree.preorder :=
      Node.mem_preorder_trans declarationBelow (Node.child_mem_preorder
        (declaration.namedChildren_subset (List.mem_of_mem_filter isDeclarator)))
    cases pattern : declarator.child? .name with
    | none =>
      rw [pattern] at declared
      exact absurd declared List.not_mem_nil
    | some bound =>
      rw [pattern] at declared
      obtain ⟨inside, refers⟩ := patternNames_spec declared
      have boundBelow := Node.mem_preorder_trans declaratorBelow
        (Node.child_mem_preorder (Node.child?_mem pattern))
      exact .inl (mem_identifiers
        (Node.mem_preorder_trans boundBelow inside) refers)
  · split at declared
    · have isName : declaration.child? .name = some name :=
        Option.mem_toList.1 declared
      cases refers : Module.isReference name.kind with
      | true =>
        exact .inl (mem_identifiers (Node.mem_preorder_trans declarationBelow
          (Node.child_mem_preorder (Node.child?_mem isName))) refers)
      | false => exact .inr (.declaration isDeclaration isName refers)
    · exact absurd declared List.not_mem_nil

/-- The name of a specifier is an identifier of the module, unless it is not
written as one. -/
theorem exportedName_cases
    {statement specifier : Node}
    {name : Text}
    (below : statement ∈ m.tree.preorder)
    (isSpecifier : specifier ∈ specifiersOf statement)
    (read : exportedName m specifier = .ok name) :
    (∃ identifier ∈ m.identifiers m.tree, name = .ofString identifier) ∨
      Unwritten m statement name := by
  obtain ⟨clause, isClause, isPart⟩ := List.mem_flatMap.1 isSpecifier
  have specifierBelow : specifier ∈ m.tree.preorder :=
    Node.mem_preorder_trans
      (Node.mem_preorder_trans below (Node.child_mem_preorder
        (statement.namedChildren_subset (List.mem_of_mem_filter isClause))))
      (Node.child_mem_preorder
        (clause.namedChildren_subset (List.mem_of_mem_filter isPart)))
  cases outerFound :
      (specifier.child? .rename <|> specifier.child? .name) with
  | none =>
    refine .inr (.specifier isSpecifier read fun outer same => ?_)
    rw [outerFound] at same
    contradiction
  | some outer =>
    cases refers : Module.isReference outer.kind with
    | false =>
      refine .inr (.specifier isSpecifier read fun other same => ?_)
      rw [outerFound, Option.some.injEq] at same
      rw [← same, refers]
    | true =>
      have isChild : outer ∈ specifier.children := by
        cases renamed : specifier.child? .rename with
        | some rename =>
          rw [renamed] at outerFound
          rw [← Option.some.inj outerFound]
          exact Node.child?_mem renamed
        | none =>
          rw [renamed] at outerFound
          exact Node.child?_mem outerFound
      have noString : (outer.kind == .string) = false := by
        rw [beq_eq_false_iff_ne]
        rintro isString
        rw [isString] at refers
        contradiction
      unfold exportedName at read
      rw [outerFound] at read
      simp only [noString, Bool.false_eq_true, if_false, Except.ok.injEq]
        at read
      exact .inl ⟨m.text outer, mem_identifiers (Node.mem_preorder_trans
        specifierBelow (Node.child_mem_preorder isChild)) refers, read.symm⟩

/-- The names of an export statement. -/
theorem ofStatement_cases
    {statement : Node}
    {exports : Exports}
    {name : Text}
    (below : statement ∈ m.tree.preorder)
    (read : ofStatement m statement = .ok exports)
    (isNamed : name ∈ exports.named) :
    (∃ identifier ∈ m.identifiers m.tree, name = .ofString identifier) ∨
      Unwritten m statement name := by
  unfold ofStatement at read
  split at read
  · rw [Except.ok.injEq] at read
    rw [← read] at isNamed
    exact absurd isNamed List.not_mem_nil
  · split at read
    · rename_i declaration isDeclaration
      rw [Except.ok.injEq] at read
      rw [← read] at isNamed
      obtain ⟨node, declared, rfl⟩ := List.mem_map.1 isNamed
      rcases declaredName_cases below isDeclaration declared with
        isIdentifier | unwritten
      · exact .inl ⟨_, isIdentifier, rfl⟩
      · exact .inr unwritten
    · simp only [bind_eq_ok, pure_eq_ok] at read
      obtain ⟨names, namesRead, rfl⟩ := read
      rw [named_foldl_append, List.flatMap_map] at isNamed
      rcases List.mem_append.1 isNamed with isNone | isUnder
      · exact absurd isNone List.not_mem_nil
      · obtain ⟨outer, isOuter, isNamed⟩ := List.mem_flatMap.1 isUnder
        have same : name = outer := by
          unfold under at isNamed
          split at isNamed
          · exact absurd isNamed List.not_mem_nil
          · exact List.mem_singleton.1 isNamed
        rw [← same] at isOuter
        obtain ⟨specifier, isSpecifier, specifierRead⟩ :=
          mem_of_mapM namesRead isOuter
        exact exportedName_cases below isSpecifier specifierRead

end Exports

/-- The exports that are located are those of the module. -/
theorem ofModule_of_locate
    {registration : Registration}
    {located : Located}
    (found : locate m registration = .ok located) :
    Exports.ofModule m = .ok located.exports := by
  unfold locate at found
  rw [bind_eq_ok] at found
  obtain ⟨specifiers, -, found⟩ := found
  simp only at found
  split at found
  · simp only [pure_bind, bind_eq_ok, pure_eq_ok] at found
    obtain ⟨exports, read, rfl⟩ := found
    exact read
  · simp only [bind_eq_ok, pure_eq_ok] at found
    obtain ⟨-, -, exports, read, rfl⟩ := found
    exact read

/-- A named export of a module is one of its identifiers, or is not written as
an identifier. -/
theorem Located.named_cases
    {registration : Registration}
    {located : Located}
    {name : Text}
    (found : locate m registration = .ok located)
    (isNamed : name ∈ located.exports.named) :
    (∃ identifier ∈ m.identifiers m.tree, name = .ofString identifier) ∨
      ∃ statement ∈ m.statements, statement.kind = .exportStatement ∧
        Exports.Unwritten m statement name := by
  have read := ofModule_of_locate found
  unfold Exports.ofModule at read
  simp only [bind_eq_ok, pure_eq_ok] at read
  obtain ⟨parts, partsRead, exportsEq⟩ := read
  rw [← exportsEq, Exports.named_foldl_append] at isNamed
  rcases List.mem_append.1 isNamed with isNone | isPart
  · exact absurd isNone List.not_mem_nil
  · obtain ⟨part, isPart, isNamed⟩ := List.mem_flatMap.1 isPart
    obtain ⟨statement, isStatement, statementRead⟩ :=
      mem_of_mapM partsRead isPart
    obtain ⟨isStatement, isExport⟩ := List.mem_filter.1 isStatement
    rcases Exports.ofStatement_cases (Module.statement_mem_preorder isStatement)
      statementRead isNamed with isIdentifier | unwritten
    · exact .inl isIdentifier
    · exact .inr ⟨statement, isStatement, beq_iff_eq.1 isExport, unwritten⟩

end Chain
end StoryMigration
