import StoryMigration.Proofs.BindingUse
import StoryMigration.Proofs.ChainOrder

/-!
# What a located fragment is made of

A fragment is found statement by statement: the first holds a chain on the
root, and each of the others one on the variable that the first binds.  Its
links are those of these chains, their methods named one behind the other over
all statements, and they do what one chain would do that was written inline.
The variable occurs once in every statement, where the chain is bound and where
it goes on, and so in no argument.
-/

namespace StoryMigration
namespace Chain

open Syntax Fallible

variable {m : Module} {localName : String} {fragment : Fragment}

/-! ## The chains of the statements -/

/-- A statement goes on from a variable with some links. -/
def GoesOn
    (m : Module)
    (localName : String)
    (binding : Option String)
    (statement : Node)
    (links : List Link) : Prop :=
  ∃ expression name, statementExpression m statement = some (expression, none) ∧
    name.kind = .identifier ∧ binding = some (m.text name) ∧
    Chained m localName expression name links

/-- The first statement holds a chain on the root, and the others go on from the
variable that it binds; the links are those of all these chains in turn. -/
def Fragment.Threaded
    (m : Module)
    (localName : String)
    (fragment : Fragment) : Prop :=
  ∃ expression firstLinks parts,
    statementExpression m fragment.first = some (expression, fragment.binding) ∧
    Chained m localName expression fragment.root firstLinks ∧
    List.Forall₂ (GoesOn m localName fragment.binding) fragment.later parts ∧
    fragment.links.map Link.bare = firstLinks ++ parts.flatten

/-- The search starts and continues fragments along one thread. -/
theorem Progress.Sound.threaded
    {taken : List Node}
    {progress next : Progress}
    {statement : Node}
    (sound : progress.Sound m localName taken)
    (threaded : ∀ fragment ∈ progress.fragments, fragment.Threaded m localName)
    (stepped : progress.step m localName statement = .ok next) :
    ∀ fragment ∈ next.fragments, fragment.Threaded m localName := by
  rcases Progress.step_eq_ok stepped with
    rfl |
    ⟨base, links, binding, index, chain, isName, bound, isExpression, rfl⟩ |
    ⟨base, links, binding, argument, rest, title, chain, -, -, -, rfl⟩
  · exact threaded
  · intro fragment isFragment
    obtain ⟨position, here⟩ := List.mem_iff_getElem?.1 isFragment
    rw [List.getElem?_modify] at here
    obtain ⟨old, oldHere, same⟩ := Option.map_eq_some_iff.1 here
    have oldThreaded := threaded old (List.mem_of_getElem? oldHere)
    split at same
    · rename_i isIndex
      subst isIndex
      obtain ⟨other, otherHere, bindingEq⟩ := sound.bound _ _ bound
      rw [oldHere, Option.some.injEq] at otherHere
      subst otherHere
      obtain ⟨expression, firstLinks, parts, found, chained, each, linksEq⟩ :=
        oldThreaded
      obtain ⟨later, laterFound, laterChained⟩ := statementChain_eq_some_iff.1 chain
      have noBinding : binding = none := by
        obtain ⟨-, ⟨-, none⟩ | ⟨isDeclaration, -⟩⟩ :=
          statementExpression_eq_some laterFound
        · exact none
        · rw [isExpression] at isDeclaration
          contradiction
      subst noBinding
      rw [← same]
      refine ⟨expression, firstLinks, parts ++ [links], found, chained,
        List.rel_append each (.cons ⟨later, base, laterFound, isName, bindingEq,
          laterChained⟩ .nil), ?_⟩
      show (old.links ++ links).map Link.bare = _
      rw [List.map_append, linksEq, (holdsLinks_of_statementChain chain).2,
        List.flatten_append, List.flatten_singleton, List.append_assoc]
    · rw [← same]
      exact oldThreaded
  · intro fragment isFragment
    rcases List.mem_append.1 isFragment with before | new
    · exact threaded fragment before
    · rw [List.mem_singleton.1 new]
      obtain ⟨expression, found, chained⟩ := statementChain_eq_some_iff.1 chain
      refine ⟨expression, links, [], found, chained, .nil, ?_⟩
      rw [(holdsLinks_of_statementChain chain).2, List.flatten_nil,
        List.append_nil]

/-- Every fragment of a module follows one thread. -/
theorem threaded_of_allFragments
    {fragments : List Fragment}
    (found : allFragments m localName = .ok fragments)
    (member : fragment ∈ fragments) :
    fragment.Threaded m localName := by
  rw [allFragments, bind_eq_ok] at found
  obtain ⟨progress, runs, made⟩ := found
  rw [pure_eq_ok] at made
  let invariant (taken : List Node) (progress : Progress) : Prop :=
    progress.Sound m localName taken ∧
      ∀ fragment ∈ progress.fragments, fragment.Threaded m localName
  have held : invariant ([] ++ m.statements) progress :=
    foldlM_invariant
      (fun _ _ _ _ before stepped =>
        ⟨before.1.step stepped, before.1.threaded before.2 stepped⟩)
      m.statements ⟨.start, fun _ none => absurd none List.not_mem_nil⟩ runs
  rw [← made] at member
  obtain ⟨bare, isBare, rfl⟩ := List.mem_map.1 member
  obtain ⟨expression, firstLinks, parts, expressionFound, chained, each, linksEq⟩ :=
    held.2 bare isBare
  exact ⟨expression, firstLinks, parts, expressionFound, chained, each,
    (bare_attachComments bare).trans linksEq⟩

/-! ## Methods over all statements -/

/-- A link is called by the name that it has in the source. -/
theorem Chained.method_eq
    {expression base : Node}
    {links : List Link}
    (chained : Chained m localName expression base links) :
    ∀ link ∈ links, link.method = m.text link.property := by
  induction chained with
  | base => exact fun _ isLink => absurd isLink List.not_mem_nil
  | call _ _ _ _ _ _ _ chainedHypothesis =>
    intro link isLink
    rcases List.mem_append.1 isLink with earlier | last
    · exact chainedHypothesis link earlier
    · rw [List.mem_singleton.1 last]

/-- The links of statements in turn are named in turn. -/
theorem inTurn_of_holdsLinks
    {statements : List Node}
    {parts : List (List Link)}
    (each : List.Forall₂ (HoldsLinks m localName) statements parts)
    (inOrder : ∀ statement ∈ statements, statement.InOrder)
    (inTurn : statements.Pairwise fun a b => a.stop ≤ b.start) :
    (∀ link ∈ parts.flatten, link.method = m.text link.property ∧
        ∃ statement ∈ statements, statement.start ≤ link.property.start ∧
          link.property.stop ≤ statement.stop) ∧
      parts.flatten.Pairwise fun a b => a.property.stop ≤ b.property.start := by
  induction each with
  | nil => exact ⟨fun _ isLink => absurd isLink List.not_mem_nil, .nil⟩
  | @cons statement links statements parts holds each eachHypothesis =>
    rw [List.pairwise_cons] at inTurn
    obtain ⟨laterInside, laterInTurn⟩ := eachHypothesis
      (fun other member => inOrder other (List.mem_cons_of_mem _ member)) inTurn.2
    obtain ⟨expression, binding, base, found, chained⟩ := holds
    have below := (statementExpression_eq_some found).1
    have whole := inOrder statement List.mem_cons_self
    have within := whole.nested.inside below
    obtain ⟨inside, chainInTurn⟩ := chained.inTurn (whole.of_mem below)
    have chainInside (link : Link) (isLink : link ∈ links) :
        statement.start ≤ link.property.start ∧
          link.property.stop ≤ statement.stop := by
      obtain ⟨start, stop⟩ := inside link isLink
      omega
    rw [List.flatten_cons]
    constructor
    · intro link isLink
      rcases List.mem_append.1 isLink with own | later
      · exact ⟨chained.method_eq link own, statement, List.mem_cons_self,
          chainInside link own⟩
      · obtain ⟨named, other, isOther, places⟩ := laterInside link later
        exact ⟨named, other, List.mem_cons_of_mem _ isOther, places⟩
    · refine List.pairwise_append.2 ⟨chainInTurn, laterInTurn, ?_⟩
      intro link own other later
      obtain ⟨-, stop⟩ := chainInside link own
      obtain ⟨-, next, isNext, start, -⟩ := laterInside other later
      have before := inTurn.1 next isNext
      omega

theorem Fragment.Threaded.holdsLinks
    (threaded : fragment.Threaded m localName) :
    ∃ parts, List.Forall₂ (HoldsLinks m localName) fragment.statements parts ∧
      fragment.links.map Link.bare = parts.flatten := by
  obtain ⟨expression, firstLinks, parts, found, chained, each, linksEq⟩ := threaded
  refine ⟨firstLinks :: parts, .cons ⟨expression, _, _, found, chained⟩ ?_,
    linksEq⟩
  refine each.imp fun statement links goesOn => ?_
  obtain ⟨later, name, laterFound, -, -, laterChained⟩ := goesOn
  exact ⟨later, _, name, laterFound, laterChained⟩

theorem method_ne_empty
    {link : Link}
    (wellFormed : link.isWellFormed = true) :
    link.method ≠ "" := by
  intro empty
  unfold Link.isWellFormed Link.isAdd Link.isDecorator Link.isParameters
    at wellFormed
  rw [empty] at wellFormed
  simp at wellFormed

/-- A node with a text is not empty. -/
theorem forward_of_text
    {node : Node}
    (written : m.text node ≠ "") :
    node.start < node.stop := by
  by_contra empty
  apply written
  have none : node.stop - node.start = 0 := by omega
  rw [Module.text, Module.slice]
  show (Utf8.toString? ((m.bytes.drop node.start).take
    (node.stop - node.start))).getD "" = ""
  rw [none, List.take_zero]
  rfl

/-- The methods of well-formed links are named one behind the other. -/
theorem Fragment.Threaded.inTurn
    (threaded : fragment.Threaded m localName)
    (inOrder : m.tree.InOrder)
    (sublist : fragment.statements.Sublist m.statements)
    (wellFormed : ∀ link ∈ fragment.links, link.isWellFormed = true) :
    fragment.links.Pairwise fun a b => a.property.start < b.property.start := by
  obtain ⟨parts, each, linksEq⟩ := threaded.holdsLinks
  have statementsInTurn : m.statements.Pairwise fun a b => a.stop ≤ b.start :=
    (inOrder.nested m.tree m.tree.self_mem_preorder).inTurn.sublist
      m.tree.parts_sublist
  obtain ⟨named, inTurn⟩ := inTurn_of_holdsLinks each
    (fun statement member => inOrder.of_mem
      (Module.statement_mem_preorder (sublist.subset member)))
    (statementsInTurn.sublist sublist)
  rw [← linksEq, List.pairwise_map] at inTurn
  refine inTurn.imp_of_mem fun {first second} isFirst _ before => ?_
  have isBare : first.bare ∈ parts.flatten := by
    rw [← linksEq]
    exact List.mem_map_of_mem isFirst
  have written : m.text first.property ≠ "" := by
    rw [show first.property = first.bare.property from rfl,
      ← (named first.bare isBare).1]
    exact method_ne_empty (wellFormed first isFirst)
  exact Nat.lt_of_lt_of_le (forward_of_text written) before

/-! ## One chain written inline -/

/-- The chain of an expression with those of some statements put around it in
turn, each in place of the variable that it goes on from. -/
def inlined (m : Module) (expression : Node) (later : List Node) : Node :=
  later.foldl (fun inner statement =>
    ((statementExpression m statement).map fun outer =>
      graft inner outer.1).getD inner) expression

/-- Written inline, the chains of several statements do what they do in turn. -/
theorem chained_inlined
    {expression root : Node}
    {binding : Option String}
    {links : List Link}
    {later : List Node}
    {parts : List (List Link)}
    (chained : Chained m localName expression root links)
    (each : List.Forall₂ (GoesOn m localName binding) later parts) :
    ∃ role others, Chained m localName (inlined m expression later)
        (reroled root role) others ∧
      others.map Link.step = (links ++ parts.flatten).map Link.step := by
  induction each generalizing expression root links with
  | nil =>
    have sameRoot : reroled root root.role = root := by
      cases root
      rfl
    refine ⟨root.role, links, ?_, by rw [List.flatten_nil, List.append_nil]⟩
    rw [sameRoot]
    exact chained
  | @cons statement part later parts goesOn each eachHypothesis =>
    obtain ⟨outer, name, found, isName, -, outerChained⟩ := goesOn
    obtain ⟨role, others, grafted, sameSteps⟩ := chained.graft outerChained isName
    obtain ⟨lastRole, all, inlinedChain, allSteps⟩ := eachHypothesis grafted
    refine ⟨lastRole, all, ?_, ?_⟩
    · rw [inlined, List.foldl_cons, found, Option.map_some, Option.getD_some]
      exact inlinedChain
    · rw [allSteps, List.map_append, sameSteps, ← List.map_append,
        List.flatten_cons, List.append_assoc]

/-! ## Occurrences of the variable -/

/-- What lies below a node counts no more than the node. -/
theorem countIn_below_le
    (p : Node → Bool)
    {node inner : Node}
    (below : inner ∈ node.preorder) :
    countIn p [inner] ≤ countIn p [node] := by
  induction node using Node.childInduction with
  | step node childHypothesis =>
    rcases Node.mem_preorder.1 below with rfl | ⟨child, isChild, inChild⟩
    · exact Nat.le_refl _
    · exact Nat.le_trans (childHypothesis child isChild inChild)
        (countIn_child_le p isChild)

theorem eq_false_of_countIn
    {p : Node → Bool}
    {nodes : List Node}
    (none : countIn p nodes = 0) :
    ∀ node ∈ nodes, ∀ inner ∈ node.preorder, p inner = false := by
  intro node isNode inner below
  rw [countIn, List.countP_eq_zero] at none
  exact Bool.not_eq_true _ ▸ none inner (List.mem_flatMap.2 ⟨node, isNode, below⟩)

/-- A declaration names its variable outside the expression that it is bound
to. -/
theorem countIn_of_binding
    {statement expression : Node}
    {name : String}
    (found : statementExpression m statement = some (expression, some name)) :
    1 + countIn (isOccurrence m name) [expression] ≤
      countIn (isOccurrence m name) [statement] := by
  unfold statementExpression at found
  split at found
  · obtain ⟨part, -, same⟩ := Option.map_eq_some_iff.1 found
    cases same
  · split at found
    · split at found
      · rename_i declarator only
        obtain ⟨value, valueFound, same⟩ := Option.map_eq_some_iff.1 found
        rw [Prod.mk.injEq] at same
        obtain ⟨rfl, bound⟩ := same
        obtain ⟨nameNode, nameFound, text⟩ := Option.bind_eq_some_iff.1 bound
        split at text
        · rename_i isIdentifier
          rw [Option.some.injEq] at text
          have declares : declarator ∈ statement.namedChildren.filter
              (·.kind == .variableDeclarator) := by
            rw [only]
            exact List.mem_singleton_self declarator
          have isChild : declarator ∈ statement.children :=
            statement.namedChildren_subset (List.mem_filter.1 declares).1
          have different : nameNode ≠ value := by
            rintro rfl
            have role := role_of_child? nameFound
            rw [role_of_child? valueFound] at role
            cases role
          have occurs : isOccurrence m name nameNode = true := by
            rw [isOccurrence, beq_iff_eq.1 isIdentifier, text, beq_self_eq_true,
              beq_self_eq_true]
            rfl
          have named : 0 < countIn (isOccurrence m name) [nameNode] :=
            Syntax.countIn_pos.2 ⟨nameNode, nameNode.self_mem_preorder, occurs⟩
          have both := countIn_pair_le (isOccurrence m name)
            (Node.child?_mem nameFound) (Node.child?_mem valueFound) different
          have inDeclarator :=
            countIn_children_le (isOccurrence m name) declarator
          have inStatement := countIn_child_le (isOccurrence m name) isChild
          omega
        · cases text
      · cases found
    · cases found

/-- Where the variable occurs once in a statement, it occurs in no argument. -/
theorem Fragment.Threaded.silent
    {name : String}
    {link : Link}
    (threaded : fragment.Threaded m localName)
    (bindingEq : fragment.binding = some name)
    (once : ∀ statement ∈ fragment.statements,
      countIn (isOccurrence m name) [statement] = 1)
    (isLink : link ∈ fragment.links) :
    ∀ argument ∈ link.arguments, ∀ node ∈ argument.preorder,
      isOccurrence m name node = false := by
  obtain ⟨expression, firstLinks, parts, found, chained, each, linksEq⟩ := threaded
  have ofPart {links : List Link}
      (none : countIn (isOccurrence m name) (links.flatMap (·.arguments)) = 0)
      (isOwn : link.bare ∈ links) :
      ∀ argument ∈ link.arguments, ∀ node ∈ argument.preorder,
        isOccurrence m name node = false :=
    fun argument isArgument => eq_false_of_countIn none argument
      (List.mem_flatMap.2 ⟨link.bare, isOwn, isArgument⟩)
  have isBare : link.bare ∈ firstLinks ++ parts.flatten := by
    rw [← linksEq]
    exact List.mem_map_of_mem isLink
  rcases List.mem_append.1 isBare with isFirst | isLater
  · rw [bindingEq] at found
    have named := countIn_of_binding found
    have inChain := chained.countIn_le (isOccurrence m name)
    have single := once fragment.first List.mem_cons_self
    exact ofPart (by omega) isFirst
  · obtain ⟨links, isPart, isOwn⟩ := List.mem_flatten.1 isLater
    obtain ⟨statement, isStatement, goesOn⟩ := exists_of_forall₂ each isPart
    obtain ⟨later, base, laterFound, isName, bound, laterChained⟩ := goesOn
    rw [bindingEq, Option.some.injEq] at bound
    have occurs : isOccurrence m name base = true := by
      rw [isOccurrence, isName, bound, beq_self_eq_true, beq_self_eq_true]
      rfl
    have named : 0 < countIn (isOccurrence m name) [base] :=
      Syntax.countIn_pos.2 ⟨base, base.self_mem_preorder, occurs⟩
    have inChain := laterChained.countIn_le (isOccurrence m name)
    have inStatement := countIn_below_le (isOccurrence m name)
      (statementExpression_eq_some laterFound).1
    have single := once statement (List.mem_cons_of_mem _ isStatement)
    exact ofPart (by omega) isOwn

/-! ## The fragments that are located -/

/-- What a fragment that can be converted is made of. -/
structure Fragment.Regular
    (m : Module)
    (localName : String)
    (fragment : Fragment) : Prop where
  /-- The statements are some of the module's, in their order. -/
  statements : fragment.statements.Sublist m.statements
  isRoot : isRoot m localName fragment.root = true
  rootBelow : fragment.root ∈ fragment.first.preorder
  /-- The links are those of the chains of the statements. -/
  threaded : fragment.Threaded m localName
  inTurn : fragment.links.Pairwise fun a b =>
    a.property.start < b.property.start
  /-- Written as one chain, the statements call the same methods with the same
  arguments. -/
  inlined : ∃ expression binding role links,
    statementExpression m fragment.first = some (expression, binding) ∧
      Chained m localName (inlined m expression fragment.later)
        (reroled fragment.root role) links ∧
      links.map Link.step = fragment.links.map Link.step
  wellFormed : ∀ link ∈ fragment.links, link.isWellFormed = true
  /-- The variable occurs in every statement once, and nowhere else. -/
  once : ∀ name, fragment.binding = some name →
    (∀ statement ∈ fragment.statements,
      countIn (isOccurrence m name) [statement] = 1) ∧
    ∀ node, Outside m fragment node → isOccurrence m name node = false
  /-- The variable occurs in no argument. -/
  silent : ∀ name, fragment.binding = some name → ∀ link ∈ fragment.links,
    ∀ argument ∈ link.arguments, ∀ node ∈ argument.preorder,
      isOccurrence m name node = false

/-- Whatever the function is called, each supported fragment of a module whose
tree is in order consists of the chains of statements that follow each other,
calls the methods of these in turn, and keeps its variable to itself. -/
theorem regular_of_supported
    {fragments : List Fragment}
    (inOrder : m.tree.InOrder)
    (found : allFragments m localName = .ok fragments)
    (member : fragment ∈ fragments)
    (supported : isSupported m fragment = true) :
    fragment.Regular m localName := by
  obtain ⟨grounded, sublist⟩ := (allFragments_sound found).1 fragment member
  have threaded := threaded_of_allFragments found member
  have isSupported := supported
  rw [Chain.isSupported, Bool.and_eq_true, List.all_eq_true] at isSupported
  obtain ⟨wellFormed, counted⟩ := isSupported
  have once (name : String) (bindingEq : fragment.binding = some name) :
      (∀ statement ∈ fragment.statements,
        countIn (isOccurrence m name) [statement] = 1) ∧
      ∀ node, Outside m fragment node → isOccurrence m name node = false := by
    rw [bindingEq] at counted
    exact (uses_eq_length_iff sublist (grounded.mentions name bindingEq)).1
      (beq_iff_eq.1 counted)
  refine ⟨sublist, grounded.isRoot, grounded.rootBelow, threaded,
    threaded.inTurn inOrder sublist wellFormed, ?_, wellFormed, once,
    fun name bindingEq link isLink =>
      threaded.silent bindingEq (once name bindingEq).1 isLink⟩
  obtain ⟨expression, firstLinks, parts, expressionFound, chained, each, linksEq⟩ :=
    threaded
  obtain ⟨role, links, inlinedChain, sameSteps⟩ := chained_inlined chained each
  refine ⟨expression, fragment.binding, role, links, expressionFound,
    inlinedChain, ?_⟩
  rw [sameSteps, ← linksEq, List.map_map]
  rfl

/-- A chain over two statements, bound to a variable. -/
theorem regular_of_supported_split :
    ∃ m fragments fragment, Module.parse? .javascript
        "const s = storiesOf('A', module).add('x', f);\ns.add('y', g).add('z', h);\n" =
          some m ∧
      allFragments m "storiesOf" = .ok fragments ∧ fragment ∈ fragments ∧
      isSupported m fragment = true ∧ fragment.binding = some "s" ∧
      fragment.links.length = 3 ∧ fragment.Regular m "storiesOf" := by
  generalize sourceEq :
    "const s = storiesOf('A', module).add('x', f);\ns.add('y', g).add('z', h);\n" =
      source
  have checked : (Module.parse? .javascript source).any (fun m =>
      (allFragments m "storiesOf").toOption.any fun fragments =>
        fragments.any fun fragment => isSupported m fragment &&
          (fragment.binding == some "s" && fragment.links.length == 3)) =
            true := by
    rw [← sourceEq]
    decide +kernel
  rw [Option.any_eq_true] at checked
  obtain ⟨m, parsed, checked⟩ := checked
  rw [any_toOption] at checked
  obtain ⟨fragments, found, checked⟩ := checked
  rw [List.any_eq_true] at checked
  obtain ⟨fragment, member, checked⟩ := checked
  rw [Bool.and_eq_true, Bool.and_eq_true, beq_iff_eq, beq_iff_eq] at checked
  obtain ⟨supported, bindingEq, three⟩ := checked
  exact ⟨m, fragments, fragment, parsed, found, member, supported, bindingEq,
    three, regular_of_supported (Module.inOrder_of_parse? parsed) found member
      supported⟩

end Chain
end StoryMigration
