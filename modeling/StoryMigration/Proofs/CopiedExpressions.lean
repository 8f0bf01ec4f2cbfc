import StoryMigration.Proofs.Fallible
import StoryMigration.Proofs.MergedMembers

/-!
# Expressions that a conversion copies

The generated exports are written with expressions of the chain.  All that its
links are given is copied, but for names, arguments nobody reads, members whose
key a later member has, and all but the last decorators that a story's own
parameters hold.
-/

namespace StoryMigration
namespace Story

open Syntax Chain Fallible

variable {m : Module}

/-! ## What is copied -/

/-- The expressions that parameters are written with. -/
def Parameters.nodes : Parameters → List Node
  | .asWritten expression => [expression]
  | .members among => among.map (·.node)

/-- The expressions that a story's own parameters and decorators are written
with. -/
def ownNodes (own : Option Parameters × Option Node) : List Node :=
  own.1.toList.flatMap Parameters.nodes ++ own.2.toList

/-- The expressions that the exports of a module are written with. -/
def copies (metadata : Metadata) (entries : List Entry) : List Node :=
  metadata.decorators ++ metadata.parameters.map (·.node) ++
    entries.flatMap fun entry =>
      entry.render :: ownNodes (entry.parameters, entry.decorators)

/-- An expression of a story's own parameters that is kept: all of them, or, if
they hold decorators, the last of these and the other members. -/
inductive Own (m : Module) (argument : Node) : Node → Prop
  | whole
      (plain : argument.kind = .object → ∀ members,
        Member.ofObject m argument = .ok members →
          ∀ member ∈ members, member.definesKey decoratorsKey = false) :
      Own m argument argument
  | member
      {members : List Member}
      {member : Member}
      (isObject : argument.kind = .object)
      (read : Member.ofObject m argument = .ok members)
      (decorated : ∃ other ∈ members, other.definesKey decoratorsKey = true)
      (needed : ∃ other ∈ members,
        other.definesKey decoratorsKey = false ∧ other.isComment = false)
      (isMember : member ∈ members)
      (isOther : member.definesKey decoratorsKey = false) :
      Own m argument member.node
  | decorators
      {front back : List Member}
      {member : Member}
      (isObject : argument.kind = .object)
      (read : Member.ofObject m argument = .ok (front ++ member :: back))
      (defines : member.definesKey decoratorsKey = true)
      (isLast : ∀ other ∈ back, other.definesKey decoratorsKey = false) :
      Own m argument member.value

/-- An expression of a chain that is kept. -/
inductive Kept (m : Module) (fragment : Fragment) : Node → Prop
  | decorator
      {link : Link}
      {decorator : Node}
      (isLink : link ∈ fragment.decorators)
      (isFirst : link.arguments.head? = some decorator) :
      Kept m fragment decorator
  | parameter
      {parts : List (List Member)}
      {member : Member}
      (read : (fragment.parameters.filterMap (·.arguments.head?)).mapM
        (Member.ofArgument m) = .ok parts)
      (isLast : IsLast parts.flatten member) :
      Kept m fragment member.node
  | render
      {link : Link}
      {name render : Node}
      {rest : List Node}
      (isLink : link ∈ fragment.adds)
      (arguments : link.arguments = name :: render :: rest) :
      Kept m fragment render
  | own
      {link : Link}
      {name render argument expression : Node}
      {rest : List Node}
      (isLink : link ∈ fragment.adds)
      (arguments : link.arguments = name :: render :: argument :: rest)
      (own : Own m argument expression) :
      Kept m fragment expression

/-! ## A story's own parameters -/

/-- The last item with a property is the one that none with it follows. -/
theorem getLast?_filter_eq_some
    {α : Type}
    {p : α → Bool}
    {items : List α}
    {last : α} :
    (items.filter p).getLast? = some last ↔
      ∃ front back, items = front ++ last :: back ∧ p last = true ∧
        ∀ other ∈ back, p other = false := by
  rw [List.getLast?_filter, List.find?_eq_some_iff_append]
  constructor
  · rintro ⟨holds, front, back, reversed, others⟩
    refine ⟨back.reverse, front.reverse, ?_, holds, fun other isOther => ?_⟩
    · rw [List.reverse_eq_iff] at reversed
      rw [reversed]
      simp
    · have differs := others other (List.mem_reverse.1 isOther)
      rw [Bool.not_eq_true'] at differs
      exact differs
  · rintro ⟨front, back, rfl, holds, others⟩
    refine ⟨holds, back.reverse, front.reverse, by simp, fun other isOther => ?_⟩
    rw [others other (List.mem_reverse.1 isOther)]
    rfl

/-- An argument that holds no decorators is kept as it is written.  Otherwise
the last decorators are set apart, and the other members put together anew if
one of them is more than a comment. -/
theorem splitParameters_eq_ok
    {argument : Node}
    {own : Option Parameters × Option Node}
    (split : splitParameters m argument = .ok own) :
    ((argument.kind = .object → ∀ members,
          Member.ofObject m argument = .ok members →
            ∀ member ∈ members, member.definesKey decoratorsKey = false) ∧
        own = (some (.asWritten argument), none)) ∨
      argument.kind = .object ∧ ∃ front decorators back others,
        Member.ofObject m argument = .ok (front ++ decorators :: back) ∧
          decorators.definesKey decoratorsKey = true ∧
          (∀ other ∈ back, other.definesKey decoratorsKey = false) ∧
          (front ++ decorators :: back).filter
            (!·.definesKey decoratorsKey) = others ∧
          own =
            (if others.all (·.isComment) then none else some (.members others),
              some decorators.value) := by
  unfold splitParameters at split
  split at split
  · rename_i notObject
    rw [bne_iff_ne] at notObject
    rw [pure_eq_ok] at split
    exact .inl ⟨fun isObject => absurd isObject notObject, split.symm⟩
  · rename_i isObject
    rw [bne_iff_ne, not_not] at isObject
    rw [bind_eq_ok] at split
    obtain ⟨members, read, split⟩ := split
    split at split
    · rename_i noDecorators
      rw [List.getLast?_eq_none_iff, List.filter_eq_nil_iff] at noDecorators
      rw [pure_eq_ok] at split
      refine .inl ⟨fun _ others otherRead member isMember => ?_, split.symm⟩
      rw [read, Except.ok.injEq] at otherRead
      rw [← otherRead] at isMember
      exact Bool.eq_false_iff.2 (noDecorators member isMember)
    · rename_i decorators found
      obtain ⟨front, back, rfl, defines, isLast⟩ :=
        getLast?_filter_eq_some.1 found
      refine .inr ⟨isObject, front, decorators, back, _, read, defines, isLast,
        rfl, ?_⟩
      simp only at split
      split at split
      · rename_i noneNeeded
        rw [pure_eq_ok] at split
        rw [← split, if_pos noneNeeded]
      · rename_i someNeeded
        rw [pure_eq_ok] at split
        rw [← split, if_neg someNeeded]

/-- Of members with decorators the last of these are kept, and the others if
one of them is more than a comment. -/
theorem own_iff_of_decorated
    {argument expression : Node}
    {front back : List Member}
    {decorators : Member}
    (isObject : argument.kind = .object)
    (read : Member.ofObject m argument = .ok (front ++ decorators :: back))
    (defines : decorators.definesKey decoratorsKey = true)
    (isLast : ∀ other ∈ back, other.definesKey decoratorsKey = false) :
    Own m argument expression ↔
      expression = decorators.value ∨
        (∃ needed ∈ (front ++ decorators :: back).filter
          (!·.definesKey decoratorsKey), needed.isComment = false) ∧
        ∃ other ∈ (front ++ decorators :: back).filter
          (!·.definesKey decoratorsKey), other.node = expression := by
  have isMember : decorators ∈ front ++ decorators :: back :=
    List.mem_append_right _ List.mem_cons_self
  have same {others : List Member}
      (otherRead : Member.ofObject m argument = .ok others) :
      others = front ++ decorators :: back := by
    rw [read, Except.ok.injEq] at otherRead
    exact otherRead.symm
  constructor
  · intro own
    cases own with
    | whole plain =>
      rw [plain isObject _ read decorators isMember] at defines
      contradiction
    | member _ otherRead _ needed otherMember isOther =>
      rw [same otherRead] at needed otherMember
      obtain ⟨need, isNeed, notDecorators, noComment⟩ := needed
      right
      refine ⟨⟨need, List.mem_filter.2 ⟨isNeed, ?_⟩, noComment⟩, _,
        List.mem_filter.2 ⟨otherMember, ?_⟩, rfl⟩
      · rw [notDecorators]
        rfl
      · rw [isOther]
        rfl
    | decorators _ otherRead otherDefines otherLast =>
      -- both are the last decorators of the same members
      have otherFound := getLast?_filter_eq_some.2
        ⟨_, _, (same otherRead).symm, otherDefines, otherLast⟩
      have found := getLast?_filter_eq_some.2
        ⟨front, back, rfl, defines, isLast⟩
      rw [found, Option.some.injEq] at otherFound
      rw [otherFound]
      exact .inl rfl
  · rintro (rfl | ⟨⟨need, isNeed, noComment⟩, other, isOther, rfl⟩)
    · exact .decorators isObject read defines isLast
    · rw [List.mem_filter, Bool.not_eq_true'] at isNeed isOther
      exact .member isObject read ⟨decorators, isMember, defines⟩
        ⟨need, isNeed.1, isNeed.2, noComment⟩ isOther.1 isOther.2

/-- The parameters and decorators of a story are written with what is kept of
its argument. -/
theorem mem_ownNodes_iff
    {argument expression : Node}
    {own : Option Parameters × Option Node}
    (split : splitParameters m argument = .ok own) :
    expression ∈ ownNodes own ↔ Own m argument expression := by
  rcases splitParameters_eq_ok split with
    ⟨plain, rfl⟩ |
    ⟨isObject, front, decorators, back, others, read, defines, isLast, othersEq,
      rfl⟩
  · constructor
    · intro isNode
      rw [List.mem_singleton.1 isNode]
      exact .whole plain
    · intro own
      cases own with
      | whole => exact List.mem_singleton_self _
      | member isObject read decorated =>
        obtain ⟨other, isOther, defines⟩ := decorated
        rw [plain isObject _ read other isOther] at defines
        contradiction
      | decorators isObject read defines =>
        rw [plain isObject _ read _
          (List.mem_append_right _ List.mem_cons_self)] at defines
        contradiction
  · rw [own_iff_of_decorated isObject read defines isLast, othersEq, ownNodes,
      Option.toList_some, List.mem_append, List.mem_singleton, or_comm]
    apply or_congr_right
    by_cases noneNeeded : others.all (·.isComment) = true
    · rw [if_pos noneNeeded]
      constructor
      · intro isNode
        exact absurd isNode List.not_mem_nil
      · rintro ⟨⟨need, isNeed, noComment⟩, -⟩
        rw [List.all_eq_true.1 noneNeeded need isNeed] at noComment
        contradiction
    · rw [if_neg noneNeeded, Option.toList_some, List.flatMap_singleton,
        Parameters.nodes, List.mem_map]
      rw [List.all_eq_true] at noneNeeded
      push Not at noneNeeded
      obtain ⟨need, isNeed, noComment⟩ := noneNeeded
      constructor
      · intro isOther
        exact ⟨⟨need, isNeed, Bool.eq_false_iff.2 noComment⟩, isOther⟩
      · rintro ⟨-, isOther⟩
        exact isOther

/-! ## The whole chain -/

/-- The story of a link that has a name and something to render. -/
theorem ofLink_of_arguments
    {link : Link}
    {name render : Node}
    {rest : List Node}
    {story : Option Entry}
    (arguments : link.arguments = name :: render :: rest)
    (read : ofLink m link = .ok story) :
    ∃ entry, story = some entry ∧ entry.render = render ∧
      ∀ expression,
        expression ∈ ownNodes (entry.parameters, entry.decorators) ↔
          ∃ argument, rest.head? = some argument ∧
            Own m argument expression := by
  unfold ofLink at read
  rw [arguments] at read
  cases rest with
  | nil =>
    simp only [bind_eq_ok, pure_eq_ok] at read
    obtain ⟨text, -, own, rfl, rfl⟩ := read
    refine ⟨_, rfl, rfl, fun expression => ?_⟩
    constructor
    · intro isNode
      exact absurd isNode List.not_mem_nil
    · rintro ⟨argument, isFirst, -⟩
      contradiction
  | cons argument rest =>
    simp only [bind_eq_ok, pure_eq_ok] at read
    obtain ⟨text, -, own, ownRead, rfl⟩ := read
    refine ⟨_, rfl, rfl, fun expression => ?_⟩
    rw [List.head?_cons]
    show expression ∈ ownNodes own ↔ _
    rw [mem_ownNodes_iff ownRead]
    constructor
    · intro kept
      exact ⟨argument, rfl, kept⟩
    · rintro ⟨other, same, kept⟩
      rw [Option.some.inj same]
      exact kept

/-- A link adds a story only if it has a name and something to render. -/
theorem arguments_of_ofLink
    {link : Link}
    {entry : Entry}
    (read : ofLink m link = .ok (some entry)) :
    ∃ name render rest, link.arguments = name :: render :: rest := by
  unfold ofLink at read
  split at read
  · rename_i name render rest arguments
    exact ⟨name, render, rest, arguments⟩
  · rw [pure_eq_ok] at read
    contradiction

/-- The exports of a module are written with exactly the expressions of the
chain that are kept. -/
theorem mem_copies_iff
    {fragment : Fragment}
    {excluded : List Text}
    {metadata : Metadata}
    {entries : List Entry}
    {expression : Node}
    (metadataRead : Metadata.ofFragment m fragment excluded = .ok metadata)
    (entriesRead : ofFragment m fragment = .ok entries) :
    expression ∈ copies metadata entries ↔ Kept m fragment expression := by
  unfold Metadata.ofFragment mergeParameters at metadataRead
  simp only [bind_eq_ok, pure_eq_ok] at metadataRead
  obtain ⟨merged, ⟨parts, partsRead, rfl⟩, rfl⟩ := metadataRead
  unfold ofFragment at entriesRead
  simp only [bind_eq_ok, pure_eq_ok] at entriesRead
  obtain ⟨stories, storiesRead, rfl⟩ := entriesRead
  have merged := (mem_merge_iff parts.flatten).2
  unfold copies
  simp only [List.mem_append, List.mem_filterMap, List.mem_map,
    List.mem_flatMap]
  constructor
  · rintro ((⟨link, isLink, isFirst⟩ | ⟨member, isMember, rfl⟩) |
      ⟨entry, ⟨story, isStory, isEntry⟩, isNode⟩)
    · exact .decorator isLink isFirst
    · exact .parameter partsRead ((merged member).1 isMember)
    · obtain ⟨link, isLink, read⟩ := mem_of_mapM storiesRead isStory
      have storyEq : story = some entry := isEntry
      rw [storyEq] at read
      obtain ⟨name, render, rest, arguments⟩ := arguments_of_ofLink read
      obtain ⟨same, sameEq, rendered, own⟩ := ofLink_of_arguments arguments read
      rw [Option.some.inj sameEq] at isNode
      rcases List.mem_cons.1 isNode with rfl | isOwn
      · rw [rendered]
        exact .render isLink arguments
      · obtain ⟨argument, isThird, kept⟩ := (own expression).1 isOwn
        obtain ⟨further, restEq⟩ := List.head?_eq_some_iff.1 isThird
        rw [restEq] at arguments
        exact .own isLink arguments kept
  · intro kept
    have ofAdd {link : Link} {name render : Node} {rest : List Node}
        (isLink : link ∈ fragment.adds)
        (arguments : link.arguments = name :: render :: rest) :
        ∃ entry, (∃ story ∈ stories, id story = some entry) ∧
          entry.render = render ∧ ∀ inner,
            inner ∈ ownNodes (entry.parameters, entry.decorators) ↔
              ∃ argument, rest.head? = some argument ∧
                Own m argument inner := by
      obtain ⟨story, isStory, read⟩ := exists_of_mapM storiesRead isLink
      obtain ⟨entry, rfl, rest⟩ := ofLink_of_arguments arguments read
      exact ⟨entry, ⟨some entry, isStory, rfl⟩, rest⟩
    cases kept with
    | decorator isLink isFirst => exact .inl (.inl ⟨_, isLink, isFirst⟩)
    | parameter read isLast =>
      rw [partsRead, Except.ok.injEq] at read
      rw [← read] at isLast
      exact .inl (.inr ⟨_, (merged _).2 isLast, rfl⟩)
    | render isLink arguments =>
      obtain ⟨entry, isEntry, rendered, -⟩ := ofAdd isLink arguments
      rw [← rendered]
      exact .inr ⟨entry, isEntry, List.mem_cons_self⟩
    | own isLink arguments own =>
      obtain ⟨entry, isEntry, -, same⟩ := ofAdd isLink arguments
      have isOwn := (same expression).2 ⟨_, rfl, own⟩
      exact .inr ⟨entry, isEntry, List.mem_cons_of_mem _ isOwn⟩

end Story
end StoryMigration
