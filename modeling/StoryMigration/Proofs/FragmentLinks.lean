import StoryMigration.Proofs.Fragment

/-!
# The links of a fragment

A fragment has the links of its statements, one statement after another,
however many there are, and each of them does one of three things.  The comments
that are attached to a link stand in the statements too.
-/

namespace StoryMigration
namespace Chain

open Syntax Fallible

variable {m : Module} {localName : String} {fragment : Fragment}

/-! ## Links of all statements -/

/-- The expression of a statement is a chain with some links. -/
def HoldsLinks
    (m : Module)
    (localName : String)
    (statement : Node)
    (links : List Link) : Prop :=
  ∃ expression binding base,
    statementExpression m statement = some (expression, binding) ∧
      Chained m localName expression base links

/-- A link as it stands in its statement, without the comments that are attached
to it. -/
def Link.bare (link : Link) : Link := { link with comments := [] }

/-- The links of a fragment are those of its statements, one statement after
another. -/
def Fragment.Collected
    (m : Module)
    (localName : String)
    (fragment : Fragment) : Prop :=
  ∃ parts, List.Forall₂ (HoldsLinks m localName) fragment.statements parts ∧
    fragment.links.map Link.bare = parts.flatten

theorem holdsLinks_of_statementChain
    {statement base : Node}
    {links : List Link}
    {binding : Option String}
    (found : statementChain m localName statement =
      some (base, links, binding)) :
    HoldsLinks m localName statement links ∧ links.map Link.bare = links := by
  obtain ⟨expression, expressionFound, chained⟩ :=
    statementChain_eq_some_iff.1 found
  refine ⟨⟨expression, binding, base, expressionFound, chained⟩, ?_⟩
  rw [List.map_congr_left, List.map_id]
  intro link isLink
  unfold Link.bare
  rw [← chained.comments_eq_nil link isLink, id_eq]

/-- A further statement adds its links. -/
theorem Fragment.Collected.extend
    {statement : Node}
    {links : List Link}
    (collected : fragment.Collected m localName)
    (holds : HoldsLinks m localName statement links)
    (areBare : links.map Link.bare = links) :
    (fragment.extend statement links).Collected m localName := by
  obtain ⟨parts, each, linksEq⟩ := collected
  refine ⟨parts ++ [links], ?_, ?_⟩
  · rw [Fragment.statements_extend]
    exact List.rel_append each (.cons holds .nil)
  · show (fragment.links ++ links).map Link.bare = _
    rw [List.map_append, linksEq, areBare, List.flatten_append,
      List.flatten_singleton]

/-- What holds of the fragment of one statement, and still holds when a further
statement adds its links, holds of all fragments however far the statements are
taken. -/
theorem forall_fragments
    {holds : Fragment → Prop}
    (starts : ∀ {statement base links binding}, ∀ title,
      statementChain m localName statement = some (base, links, binding) →
        holds ⟨base, title, links, statement, [], binding⟩)
    (grows : ∀ {fragment statement base links binding},
      statementChain m localName statement = some (base, links, binding) →
        holds fragment → holds (fragment.extend statement links))
    {statements : List Node}
    {progress : Progress}
    (runs : statements.foldlM (Progress.step m localName) ⟨[], []⟩ =
      .ok progress) :
    ∀ fragment ∈ progress.fragments, holds fragment := by
  let invariant (_ : List Node) (progress : Progress) : Prop :=
    ∀ fragment ∈ progress.fragments, holds fragment
  have none : invariant [] ⟨[], []⟩ :=
    fun _ isFragment => absurd isFragment List.not_mem_nil
  refine foldlM_invariant (fun _ progress statement next held stepped => ?_)
    statements none runs
  rcases Progress.step_eq_ok stepped with
    rfl |
    ⟨base, links, binding, index, chain, -, -, -, rfl⟩ |
    ⟨base, links, binding, argument, rest, title, chain, -, -, -, rfl⟩
  · exact held
  · intro fragment isFragment
    obtain ⟨position, here⟩ := List.mem_iff_getElem?.1 isFragment
    rw [List.getElem?_modify] at here
    obtain ⟨old, oldHere, same⟩ := Option.map_eq_some_iff.1 here
    have oldHeld := held old (List.mem_of_getElem? oldHere)
    split at same
    · rw [← same]
      exact grows chain oldHeld
    · rw [← same]
      exact oldHeld
  · intro fragment isFragment
    rcases List.mem_append.1 isFragment with before | new
    · exact held fragment before
    · rw [List.mem_singleton.1 new]
      exact starts title chain

/-- Fragments are collected however far the statements are taken. -/
theorem progress_collected
    {statements : List Node}
    {progress : Progress}
    (runs : statements.foldlM (Progress.step m localName) ⟨[], []⟩ =
      .ok progress) :
    ∀ fragment ∈ progress.fragments, fragment.Collected m localName := by
  refine forall_fragments (fun title chain => ?_) (fun chain collected => ?_) runs
  · obtain ⟨holds, areBare⟩ := holdsLinks_of_statementChain chain
    refine ⟨[_], .cons holds .nil, ?_⟩
    rw [areBare, List.flatten_singleton]
  · obtain ⟨holds, areBare⟩ := holdsLinks_of_statementChain chain
    exact collected.extend holds areBare

/-- No fragment has comments before these are attached to its links. -/
theorem progress_comments
    {statements : List Node}
    {progress : Progress}
    (runs : statements.foldlM (Progress.step m localName) ⟨[], []⟩ =
      .ok progress) :
    ∀ fragment ∈ progress.fragments, ∀ link ∈ fragment.links,
      link.comments = [] := by
  have ofChain
      {statement base : Node}
      {links : List Link}
      {binding : Option String}
      (chain : statementChain m localName statement =
        some (base, links, binding)) :
      ∀ link ∈ links, link.comments = [] := by
    obtain ⟨expression, -, chained⟩ := statementChain_eq_some_iff.1 chain
    exact chained.comments_eq_nil
  refine forall_fragments (fun title chain => ofChain chain)
    (fun chain held link isLink => ?_) runs
  rcases List.mem_append.1 isLink with isOld | isNew
  · exact held link isOld
  · exact ofChain chain link isNew

/-- Attaching comments changes no link otherwise. -/
theorem bare_attachComments
    (fragment : Fragment) :
    (attachComments fragment).links.map Link.bare =
      fragment.links.map Link.bare := by
  unfold attachComments
  refine List.ext_getElem? fun position => ?_
  rw [List.getElem?_map, List.getElem?_map, List.getElem?_mapIdx,
    Option.map_map]
  rfl

/-- A located fragment has exactly the links of its statements. -/
theorem Located.Sound.collected
    {located : Located}
    (sound : located.Sound m)
    (member : fragment ∈ located.fragments) :
    fragment.Collected m located.localName := by
  by_cases someRoots : located.roots = []
  · rw [sound.noFragments someRoots] at member
    exact absurd member List.not_mem_nil
  · obtain ⟨all, allFound, same⟩ := sound.fragments someRoots
    rw [same, List.mem_filter] at member
    rw [allFragments, bind_eq_ok] at allFound
    obtain ⟨progress, runs, made⟩ := allFound
    rw [pure_eq_ok] at made
    have collected : ∀ fragment ∈ progress.fragments,
        fragment.Collected m located.localName :=
      progress_collected runs
    rw [← made] at member
    obtain ⟨bare, isBare, rfl⟩ := List.mem_map.1 member.1
    obtain ⟨parts, each, linksEq⟩ := collected bare isBare
    exact ⟨parts, each, (bare_attachComments bare).trans linksEq⟩

/-- The comments of the links of a located fragment are comments in its
statements. -/
theorem Located.Sound.comment_mem
    {located : Located}
    {link : Link}
    {comment : Node}
    (sound : located.Sound m)
    (member : fragment ∈ located.fragments)
    (isLink : link ∈ fragment.links)
    (isComment : comment ∈ link.comments) :
    comment.kind = .comment ∧
      ∃ statement ∈ fragment.statements, comment ∈ statement.preorder := by
  by_cases someRoots : located.roots = []
  · rw [sound.noFragments someRoots] at member
    exact absurd member List.not_mem_nil
  · obtain ⟨all, allFound, same⟩ := sound.fragments someRoots
    rw [same, List.mem_filter] at member
    rw [allFragments, bind_eq_ok] at allFound
    obtain ⟨progress, runs, made⟩ := allFound
    rw [pure_eq_ok] at made
    have noComments := progress_comments runs
    rw [← made] at member
    obtain ⟨bare, isBare, rfl⟩ := List.mem_map.1 member.1
    obtain ⟨index, inside, rfl⟩ := List.mem_mapIdx.1 isLink
    simp only at isComment
    rw [noComments bare isBare _ (List.getElem_mem inside),
      List.nil_append, List.mem_filter] at isComment
    obtain ⟨below, -⟩ := List.mem_filter.1 isComment.1
    obtain ⟨statement, isStatement, isComment⟩ := List.mem_flatMap.1 below
    obtain ⟨below, isKind⟩ := List.mem_filter.1 isComment
    exact ⟨beq_iff_eq.1 isKind, statement, isStatement, below⟩

/-! ## Where the arguments of links stand -/

theorem mem_preorder_of_callArguments
    {call argument : Node}
    (isArgument : argument ∈ call.callArguments) :
    argument ∈ call.preorder := by
  unfold Node.callArguments at isArgument
  cases found : call.child? .arguments with
  | none =>
    rw [found] at isArgument
    contradiction
  | some arguments =>
    rw [found] at isArgument
    exact Node.mem_preorder_of_child (Node.child?_mem found)
      (Node.child_mem_preorder (arguments.parts_subset isArgument))

/-- The arguments of the links of a chain stand in it. -/
theorem Chained.argument_mem
    {expression base : Node}
    {links : List Link}
    (chained : Chained m localName expression base links) :
    ∀ link ∈ links, ∀ argument ∈ link.arguments,
      argument ∈ expression.preorder := by
  induction chained with
  | base => exact fun _ isLink => absurd isLink List.not_mem_nil
  | call isCall notRoot calleeFound isMember receiverFound propertyFound chained
      chainedHypothesis =>
    intro link isLink argument isArgument
    rcases List.mem_append.1 isLink with earlier | last
    · exact Node.mem_preorder_of_child (Node.child?_mem calleeFound)
        (Node.mem_preorder_of_child (Node.child?_mem receiverFound)
          (chainedHypothesis link earlier argument isArgument))
    · rw [List.mem_singleton.1 last] at isArgument
      exact mem_preorder_of_callArguments isArgument

/-- Each item of the second of two related lists is related to one of the
first. -/
theorem exists_of_forall₂
    {α β : Type}
    {relates : α → β → Prop}
    {firsts : List α}
    {seconds : List β}
    {second : β}
    (each : List.Forall₂ relates firsts seconds)
    (member : second ∈ seconds) :
    ∃ first ∈ firsts, relates first second := by
  induction each with
  | nil => contradiction
  | cons related each eachHypothesis =>
    rcases List.mem_cons.1 member with rfl | later
    · exact ⟨_, List.mem_cons_self, related⟩
    · obtain ⟨first, isFirst, related⟩ := eachHypothesis later
      exact ⟨first, List.mem_cons_of_mem _ isFirst, related⟩

/-- The arguments of the links of a fragment stand in its statements. -/
theorem Fragment.Collected.argument_mem
    {link : Link}
    {argument : Node}
    (collected : fragment.Collected m localName)
    (isLink : link ∈ fragment.links)
    (isArgument : argument ∈ link.arguments) :
    ∃ statement ∈ fragment.statements, argument ∈ statement.preorder := by
  obtain ⟨parts, each, linksEq⟩ := collected
  have isBare : link.bare ∈ parts.flatten := by
    rw [← linksEq]
    exact List.mem_map_of_mem isLink
  obtain ⟨links, isPart, isLink⟩ := List.mem_flatten.1 isBare
  obtain ⟨statement, isStatement, holds⟩ := exists_of_forall₂ each isPart
  obtain ⟨expression, binding, base, expressionFound, chained⟩ := holds
  exact ⟨statement, isStatement, Node.mem_preorder_trans
    (statementExpression_eq_some expressionFound).1
    (chained.argument_mem _ isLink argument isArgument)⟩

/-! ## Three kinds of links -/

/-- The links of a supported fragment are its stories, decorators and parameters,
each of them once. -/
theorem links_perm_of_wellFormed
    (wellFormed : ∀ link ∈ fragment.links, link.isWellFormed = true) :
    fragment.links.Perm
      (fragment.adds ++ fragment.decorators ++ fragment.parameters) := by
  unfold Fragment.adds Fragment.decorators Fragment.parameters
  generalize fragment.links = links at wellFormed
  have decorators : (links.filter (!·.isAdd)).filter (·.isDecorator) =
      links.filter (·.isDecorator) := by
    rw [List.filter_filter]
    refine List.filter_congr fun link isLink => ?_
    rcases Link.cases_of_isWellFormed (wellFormed link isLink) with
      ⟨isAdd, notDecorator, -⟩ | ⟨⟨notAdd, isDecorator, -⟩ |
        ⟨notAdd, notDecorator, -⟩, -⟩ <;> simp [*]
  have parameters : (links.filter (!·.isAdd)).filter (!·.isDecorator) =
      links.filter (·.isParameters) := by
    rw [List.filter_filter]
    refine List.filter_congr fun link isLink => ?_
    rcases Link.cases_of_isWellFormed (wellFormed link isLink) with
      ⟨isAdd, notDecorator, notParameters, -⟩ |
        ⟨⟨notAdd, isDecorator, notParameters⟩ |
          ⟨notAdd, notDecorator, isParameters⟩, -⟩ <;> simp [*]
  have others := List.filter_append_perm (·.isDecorator)
    (links.filter (!·.isAdd))
  rw [decorators, parameters] at others
  rw [List.append_assoc]
  exact ((others.append_left _).trans
    (List.filter_append_perm (·.isAdd) links)).symm

end Chain
end StoryMigration
