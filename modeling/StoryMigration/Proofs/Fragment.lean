import StoryMigration.Proofs.CallChain
import StoryMigration.Proofs.Fallible

/-!
# What a fragment is made of

The search for chains takes the statements of a module one after another.  At
every point of it a fragment consists of statements that have been taken, in
their order: the first holds the root, and the others go on from the variable
that the first binds, so that each of them holds an occurrence of its name.
-/

namespace StoryMigration
namespace Chain

open Syntax Fallible

variable {m : Module} {localName : String}

/-! ## The expression of a statement -/

/-- A node that is counted as an occurrence of a name. -/
def isOccurrence (m : Module) (name : String) (node : Node) : Bool :=
  (node.kind == .identifier || node.kind == .shorthandProperty) &&
    m.text node == name

/-- The name occurs as an identifier in a node. -/
def Mentions (m : Module) (name : String) (node : Node) : Prop :=
  ∃ inner ∈ node.preorder, inner.kind = .identifier ∧ m.text inner = name

/-- The declarators of a declaration. -/
def declarators (statement : Node) : List Node :=
  statement.namedChildren.filter (·.kind == .variableDeclarator)

/-- The variable that a declarator binds, if it binds a plain one. -/
def plainName (m : Module) (declarator : Node) : Option String :=
  (declarator.child? .name).bind fun name =>
    if name.kind == .identifier then some (m.text name) else none

/-- The expression of a statement is that of an expression statement, or the
value of the only declarator of a declaration. -/
theorem statementExpression_eq_some
    {statement expression : Node}
    {binding : Option String}
    (found : statementExpression m statement = some (expression, binding)) :
    expression ∈ statement.preorder ∧
      (statement.kind = .expressionStatement ∧ binding = none ∨
        statement.kind.isVariableDeclaration = true ∧
          ∃ declarator, declarators statement = [declarator] ∧
            binding = plainName m declarator) := by
  unfold statementExpression at found
  split at found
  · rename_i isExpression
    obtain ⟨part, first, same⟩ := Option.map_eq_some_iff.1 found
    rw [Prod.mk.injEq] at same
    obtain ⟨rfl, rfl⟩ := same
    have member := statement.parts_subset (List.mem_of_head? first)
    exact ⟨Node.child_mem_preorder member,
      .inl ⟨beq_iff_eq.1 isExpression, rfl⟩⟩
  · split at found
    · rename_i isDeclaration
      split at found
      · rename_i declarator only
        obtain ⟨value, valueFound, same⟩ := Option.map_eq_some_iff.1 found
        rw [Prod.mk.injEq] at same
        obtain ⟨rfl, rfl⟩ := same
        have declaratorMember : declarator ∈ statement.children := by
          have member : declarator ∈ statement.namedChildren.filter
              (·.kind == .variableDeclarator) := by
            rw [only]
            exact List.mem_singleton_self declarator
          exact statement.namedChildren_subset (List.mem_filter.1 member).1
        exact ⟨Node.mem_preorder_of_child declaratorMember
            (Node.child_mem_preorder (Node.child?_mem valueFound)),
          .inr ⟨isDeclaration, declarator, only, rfl⟩⟩
      · contradiction
    · contradiction

/-- A statement that binds a variable mentions it. -/
theorem mentions_of_binding
    {statement expression : Node}
    {name : String}
    (found : statementExpression m statement = some (expression, some name)) :
    Mentions m name statement := by
  obtain ⟨-, ⟨-, none⟩ | ⟨-, declarator, only, bound⟩⟩ :=
    statementExpression_eq_some found
  · contradiction
  · obtain ⟨nameNode, nameFound, text⟩ :=
      Option.bind_eq_some_iff.1 bound.symm
    split at text
    · rename_i isIdentifier
      rw [Option.some.injEq] at text
      have declaratorMember : declarator ∈ declarators statement := by
        rw [only]
        exact List.mem_singleton_self declarator
      exact ⟨nameNode,
        Node.mem_preorder_of_child
          (statement.namedChildren_subset
            (List.mem_filter.1 declaratorMember).1)
          (Node.child_mem_preorder (Node.child?_mem nameFound)),
        beq_iff_eq.1 isIdentifier, text⟩
    · contradiction

/-- The chain of a statement is that of its expression. -/
theorem statementChain_eq_some_iff
    {statement base : Node}
    {links : List Link}
    {binding : Option String} :
    statementChain m localName statement = some (base, links, binding) ↔
      ∃ expression, statementExpression m statement = some (expression, binding) ∧
        Chained m localName expression base links := by
  unfold statementChain
  constructor
  · intro found
    split at found
    · rename_i expression binding' expressionFound
      obtain ⟨⟨base', links'⟩, unwound, same⟩ := Option.map_eq_some_iff.1 found
      simp only [Prod.mk.injEq] at same
      obtain ⟨rfl, rfl, rfl⟩ := same
      exact ⟨expression, expressionFound, unwind_eq_some_iff.1 unwound⟩
    · contradiction
  · rintro ⟨expression, expressionFound, chained⟩
    rw [expressionFound]
    simp only [unwind_eq_some_iff.2 chained, Option.map_some]

/-- The chain of a statement starts inside it, at a root or at a name. -/
theorem base_of_statementChain
    {statement base : Node}
    {links : List Link}
    {binding : Option String}
    (found : statementChain m localName statement =
      some (base, links, binding)) :
    base ∈ statement.preorder ∧
      (isRoot m localName base = true ∨ base.kind = .identifier) := by
  obtain ⟨expression, expressionFound, chained⟩ :=
    statementChain_eq_some_iff.1 found
  obtain ⟨baseBelow, isBase⟩ := chained.base_mem
  exact ⟨Node.mem_preorder_trans
    (statementExpression_eq_some expressionFound).1 baseBelow, isBase⟩

/-! ## The search -/

/-- A fragment whose first statement holds its root and binds its variable,
and whose statements all mention that variable. -/
structure Fragment.Grounded
    (m : Module)
    (localName : String)
    (fragment : Fragment) : Prop where
  isRoot : isRoot m localName fragment.root = true
  rootBelow : fragment.root ∈ fragment.first.preorder
  bound : ∃ expression,
    statementExpression m fragment.first = some (expression, fragment.binding)
  laterKind : ∀ statement ∈ fragment.later,
    statement.kind = .expressionStatement
  mentions : ∀ name, fragment.binding = some name →
    ∀ statement ∈ fragment.statements, Mentions m name statement

/-- What holds of the search when some statements have been taken. -/
structure Progress.Sound
    (m : Module)
    (localName : String)
    (taken : List Node)
    (progress : Progress) : Prop where
  grounded : ∀ fragment ∈ progress.fragments, fragment.Grounded m localName
  statements : ∀ fragment ∈ progress.fragments,
    fragment.statements.Sublist taken
  firsts : (progress.fragments.map (·.first)).Sublist taken
  bound : ∀ name index, (name, index) ∈ progress.bound →
    ∃ fragment, progress.fragments[index]? = some fragment ∧
      fragment.binding = some name

theorem Progress.Sound.start :
    Progress.Sound m localName [] ⟨[], []⟩ where
  grounded _ member := absurd member List.not_mem_nil
  statements _ member := absurd member List.not_mem_nil
  firsts := List.Sublist.refl _
  bound _ _ member := absurd member List.not_mem_nil

/-- A statement in which nothing is found changes nothing. -/
theorem Progress.Sound.skip
    {taken : List Node}
    {progress : Progress}
    (sound : progress.Sound m localName taken)
    (statement : Node) :
    progress.Sound m localName (taken ++ [statement]) where
  grounded := sound.grounded
  statements fragment member :=
    (sound.statements fragment member).trans (List.sublist_append_left _ _)
  firsts := sound.firsts.trans (List.sublist_append_left _ _)
  bound := sound.bound

@[simp] theorem Fragment.statements_extend
    (fragment : Fragment)
    (statement : Node)
    (links : List Link) :
    (fragment.extend statement links).statements =
      fragment.statements ++ [statement] := rfl

/-- A statement may go on from the variable that it mentions. -/
theorem Fragment.Grounded.extend
    {fragment : Fragment}
    {statement : Node}
    {name : String}
    (grounded : fragment.Grounded m localName)
    (binding : fragment.binding = some name)
    (kind : statement.kind = .expressionStatement)
    (mentions : Mentions m name statement)
    (links : List Link) :
    (fragment.extend statement links).Grounded m localName where
  isRoot := grounded.isRoot
  rootBelow := grounded.rootBelow
  bound := grounded.bound
  laterKind other member := by
    rcases List.mem_append.1 member with before | new
    · exact grounded.laterKind other before
    · rw [List.mem_singleton.1 new]
      exact kind
  mentions other sameBinding inner member := by
    have sameName : name = other := by
      rw [← Option.some.injEq, ← binding]
      exact sameBinding
    rw [Fragment.statements_extend, List.mem_append] at member
    rcases member with before | new
    · exact grounded.mentions other sameBinding inner before
    · rw [List.mem_singleton.1 new, ← sameName]
      exact mentions

/-- A fragment may be extended by a statement that mentions its variable. -/
theorem Progress.Sound.extend
    {taken : List Node}
    {progress : Progress}
    {statement : Node}
    {name : String}
    {index : Nat}
    (sound : progress.Sound m localName taken)
    (bound : (name, index) ∈ progress.bound)
    (kind : statement.kind = .expressionStatement)
    (mentions : Mentions m name statement)
    (links : List Link) :
    Progress.Sound m localName (taken ++ [statement])
      { progress with
        fragments :=
          progress.fragments.modify index (·.extend statement links) } := by
  obtain ⟨extended, atIndex, extendedBinding⟩ := sound.bound name index bound
  have isOld {fragment : Fragment} (member : fragment ∈
      progress.fragments.modify index (·.extend statement links)) :
      fragment ∈ progress.fragments ∨
        fragment = extended.extend statement links := by
    obtain ⟨position, here⟩ := List.mem_iff_getElem?.1 member
    rw [List.getElem?_modify] at here
    obtain ⟨old, oldHere, same⟩ := Option.map_eq_some_iff.1 here
    by_cases atPosition : index = position
    · rw [← atPosition, atIndex, Option.some.injEq] at oldHere
      rw [if_pos atPosition, ← oldHere] at same
      exact .inr same.symm
    · rw [if_neg atPosition] at same
      rw [← same]
      exact .inl (List.mem_of_getElem? oldHere)
  have extendedMember := List.mem_of_getElem? atIndex
  refine ⟨?_, ?_, ?_, ?_⟩
  · intro fragment member
    rcases isOld member with old | rfl
    · exact sound.grounded fragment old
    · exact (sound.grounded extended extendedMember).extend extendedBinding kind
        mentions links
  · intro fragment member
    rcases isOld member with old | rfl
    · exact (sound.skip statement).statements fragment old
    · exact (sound.statements extended extendedMember).append
        (List.Sublist.refl _)
  · have sameFirsts : (progress.fragments.modify index
        (·.extend statement links)).map (·.first) =
          progress.fragments.map (·.first) := by
      apply List.ext_getElem?
      intro position
      rw [List.getElem?_map, List.getElem?_map, List.getElem?_modify,
        Option.map_eq_map, Option.map_map]
      apply congrArg (fun change => Option.map change _)
      funext fragment
      rw [Function.comp_apply]
      split <;> rfl
    show List.Sublist (List.map _ (List.modify _ _ _)) _
    rw [sameFirsts]
    exact (sound.skip statement).firsts
  · intro other position member
    obtain ⟨fragment, here, binding⟩ := sound.bound other position member
    have changed : (progress.fragments.modify index
        (·.extend statement links))[position]? =
          some (if index = position then fragment.extend statement links
            else fragment) := by
      rw [List.getElem?_modify, here, Option.map_eq_map, Option.map_some]
    refine ⟨_, changed, ?_⟩
    split
    · exact binding
    · exact binding

/-- A statement that holds a root starts a fragment. -/
theorem Progress.Sound.found
    {taken : List Node}
    {progress : Progress}
    {fragment : Fragment}
    (sound : progress.Sound m localName taken)
    (grounded : fragment.Grounded m localName)
    (alone : fragment.later = []) :
    Progress.Sound m localName (taken ++ [fragment.first])
      { fragments := progress.fragments ++ [fragment]
        bound :=
          match fragment.binding with
          | some name => (name, progress.fragments.length) :: progress.bound
          | none => progress.bound } := by
  have stays {name : String} {index : Nat}
      (member : (name, index) ∈ progress.bound) :
      ∃ other, (progress.fragments ++ [fragment])[index]? = some other ∧
        other.binding = some name := by
    obtain ⟨other, here, binding⟩ := sound.bound name index member
    have inside := (List.getElem?_eq_some_iff.1 here).1
    exact ⟨other, by rw [List.getElem?_append_left inside, here], binding⟩
  refine ⟨?_, ?_, ?_, ?_⟩
  · intro other member
    rcases List.mem_append.1 member with before | new
    · exact sound.grounded other before
    · rw [List.mem_singleton.1 new]
      exact grounded
  · intro other member
    rcases List.mem_append.1 member with before | new
    · exact (sound.skip fragment.first).statements other before
    · rw [List.mem_singleton.1 new, Fragment.statements, alone]
      exact List.sublist_append_right _ _
  · rw [List.map_append]
    exact sound.firsts.append (List.Sublist.refl _)
  · intro name index member
    rcases bindingEq : fragment.binding with _ | own
    · rw [bindingEq] at member
      exact stays member
    · rw [bindingEq] at member
      rcases List.mem_cons.1 member with new | before
      · rw [Prod.mk.injEq] at new
        obtain ⟨rfl, rfl⟩ := new
        exact ⟨fragment, List.getElem?_concat_length, bindingEq⟩
      · exact stays before

/-- A statement changes nothing, or goes on from a variable that a fragment is
bound to, or starts a fragment at a root with a title. -/
theorem Progress.step_eq_ok
    {progress next : Progress}
    {statement : Node}
    (stepped : progress.step m localName statement = .ok next) :
    next = progress ∨
      (∃ base links binding index,
        statementChain m localName statement = some (base, links, binding) ∧
          base.kind = .identifier ∧ (m.text base, index) ∈ progress.bound ∧
          statement.kind = .expressionStatement ∧
          next =
            { progress with
              fragments :=
                progress.fragments.modify index (·.extend statement links) }) ∨
      ∃ base links binding argument rest title,
        statementChain m localName statement = some (base, links, binding) ∧
          base.kind ≠ .identifier ∧ base.callArguments = argument :: rest ∧
          m.stringValue argument = .ok title ∧
          next =
            { fragments :=
                progress.fragments ++ [⟨base, title, links, statement, [], binding⟩]
              bound :=
                match binding with
                | some name => (name, progress.fragments.length) :: progress.bound
                | none => progress.bound } := by
  unfold Progress.step at stepped
  split at stepped
  · rw [pure_eq_ok] at stepped
    exact .inl stepped.symm
  · rename_i base links binding chain
    split at stepped
    · rename_i isName
      split at stepped
      · rename_i boundName index foundBound
        split at stepped
        · rename_i isExpression
          rw [pure_eq_ok] at stepped
          have sameName := List.find?_some foundBound
          rw [beq_iff_eq] at sameName
          have sameName : boundName = m.text base := sameName
          subst sameName
          exact .inr (.inl ⟨base, links, binding, index, chain,
            beq_iff_eq.1 isName, List.mem_of_find?_eq_some foundBound,
            beq_iff_eq.1 isExpression, stepped.symm⟩)
        · rw [pure_eq_ok] at stepped
          exact .inl stepped.symm
      · rw [pure_eq_ok] at stepped
        exact .inl stepped.symm
    · rename_i notName
      split at stepped
      · rename_i argument rest argumentsEq
        rw [bind_eq_ok] at stepped
        obtain ⟨title, titleRead, made⟩ := stepped
        rw [pure_eq_ok] at made
        exact .inr (.inr ⟨base, links, binding, argument, rest, title, chain,
          fun isName => notName (beq_iff_eq.2 isName), argumentsEq, titleRead,
          made.symm⟩)
      · rw [pure_eq_ok] at stepped
        exact .inl stepped.symm

/-- Taking one more statement keeps the search sound. -/
theorem Progress.Sound.step
    {taken : List Node}
    {progress next : Progress}
    {statement : Node}
    (sound : progress.Sound m localName taken)
    (stepped : progress.step m localName statement = .ok next) :
    next.Sound m localName (taken ++ [statement]) := by
  rcases Progress.step_eq_ok stepped with
    rfl |
    ⟨base, links, binding, index, chain, isName, bound, isExpression, rfl⟩ |
    ⟨base, links, binding, argument, rest, title, chain, notName, -, -, rfl⟩
  · exact sound.skip statement
  · obtain ⟨baseBelow, -⟩ := base_of_statementChain chain
    exact sound.extend bound isExpression ⟨base, baseBelow, isName, rfl⟩ links
  · obtain ⟨baseBelow, isBase⟩ := base_of_statementChain chain
    obtain ⟨expression, expressionFound, -⟩ :=
      statementChain_eq_some_iff.1 chain
    have grounded : Fragment.Grounded m localName
        ⟨base, title, links, statement, [], binding⟩ := by
      refine ⟨isBase.resolve_right notName, baseBelow,
        ⟨expression, expressionFound⟩, ?_, ?_⟩
      · intro other member
        exact absurd member List.not_mem_nil
      · intro name bindingEq other member
        rw [Fragment.statements, List.mem_singleton] at member
        rw [member]
        have bindingEq : binding = some name := bindingEq
        rw [bindingEq] at expressionFound
        exact mentions_of_binding expressionFound
    exact sound.found grounded rfl

/-! ## What is found -/

/-- Attaching comments changes nothing but the links. -/
theorem Fragment.Grounded.attachComments
    {fragment : Fragment}
    (grounded : fragment.Grounded m localName) :
    (attachComments fragment).Grounded m localName :=
  ⟨grounded.isRoot, grounded.rootBelow, grounded.bound, grounded.laterKind,
    grounded.mentions⟩

/-- All fragments of a module are made of its statements. -/
theorem allFragments_sound
    {fragments : List Fragment}
    (found : allFragments m localName = .ok fragments) :
    (∀ fragment ∈ fragments, fragment.Grounded m localName ∧
        fragment.statements.Sublist m.statements) ∧
      (fragments.map (·.first)).Sublist m.statements := by
  rw [allFragments, bind_eq_ok] at found
  obtain ⟨progress, runs, made⟩ := found
  rw [pure_eq_ok] at made
  have sound : progress.Sound m localName ([] ++ m.statements) :=
    foldlM_invariant
      (fun _ _ _ _ => Progress.Sound.step) m.statements .start runs
  rw [List.nil_append] at sound
  rw [← made]
  refine ⟨?_, ?_⟩
  · intro fragment member
    obtain ⟨bare, bareMember, rfl⟩ := List.mem_map.1 member
    exact ⟨(sound.grounded bare bareMember).attachComments,
      sound.statements bare bareMember⟩
  · rw [List.map_map]
    exact sound.firsts

/-- What is located in a module are all calls that start a chain, and the
supported ones among its fragments. -/
structure Located.Sound (m : Module) (located : Located) : Prop where
  roots : located.roots =
    m.tree.preorder.filter (isRoot m located.localName)
  fragments : located.roots ≠ [] → ∃ all,
    allFragments m located.localName = .ok all ∧
      located.fragments = all.filter (isSupported m)
  noFragments : located.roots = [] → located.fragments = []

theorem locate_sound
    {registration : Registration}
    {located : Located}
    (found : locate m registration = .ok located) :
    located.Sound m := by
  rw [locate, bind_eq_ok] at found
  obtain ⟨specifiers, -, found⟩ := found
  simp only at found
  split at found
  · rename_i noRoots
    simp only [pure_bind, bind_eq_ok] at found
    obtain ⟨exports, -, made⟩ := found
    rw [pure_eq_ok] at made
    subst made
    rw [List.isEmpty_iff] at noRoots
    exact ⟨rfl, fun someRoots => absurd noRoots someRoots, fun _ => rfl⟩
  · rename_i someRoots
    simp only [bind_eq_ok] at found
    obtain ⟨fragments, fragmentsFound, exports, -, made⟩ := found
    rw [pure_eq_ok] at made
    subst made
    rw [List.isEmpty_iff] at someRoots
    refine ⟨rfl, fun _ => ?_, fun noRoots => absurd noRoots someRoots⟩
    cases allFound : allFragments m
        (localNameOf m registration specifiers.head?) with
    | error failure =>
      rw [allFound] at fragmentsFound
      contradiction
    | ok all =>
      rw [allFound] at fragmentsFound
      exact ⟨all, rfl, (Except.ok.inj fragmentsFound).symm⟩

/-- A located fragment is supported, and made of statements of the module. -/
theorem Located.Sound.of_mem
    {located : Located}
    {fragment : Fragment}
    (sound : located.Sound m)
    (member : fragment ∈ located.fragments) :
    isSupported m fragment = true ∧
      fragment.Grounded m located.localName ∧
      fragment.statements.Sublist m.statements := by
  by_cases someRoots : located.roots = []
  · rw [sound.noFragments someRoots] at member
    exact absurd member List.not_mem_nil
  · obtain ⟨all, allFound, same⟩ := sound.fragments someRoots
    rw [same, List.mem_filter] at member
    exact ⟨member.2, (allFragments_sound allFound).1 fragment member.1⟩

end Chain
end StoryMigration
