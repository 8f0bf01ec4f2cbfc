import StoryMigration.Proofs.CopiedExpressions
import StoryMigration.Proofs.FragmentLinks

/-!
# What is read from a chain

Every link that adds a story is read as one story, in the order of the links,
and its third argument is divided into parameters and decorators.  Reading fails
only where a literal has an escape sequence that denotes nothing.
-/

namespace StoryMigration
namespace Story

open Syntax Chain Fallible

variable {m : Module}

/-! ## Dividing an argument -/

/-- Whether a child of an object literal gives decorators, as a pair or as a
shorthand. -/
def givesDecorators (m : Module) (child : Node) : Bool :=
  (m.propertyKey child).toOption == some (some decoratorsKey) &&
    (child.kind == .pair || child.kind == .shorthandProperty)

/-- What a child of an object literal gives to its key: a pair its value, and a
shorthand the variable. -/
def givenValue (child : Node) : Node :=
  if child.kind == .pair then (child.child? .value).getD child else child

/-- The keys of an object literal denote something. -/
def Keyed (m : Module) (object : Node) : Prop :=
  ∀ child ∈ object.namedChildren, ∃ key, m.propertyKey child = .ok key

/-- The parameters and decorators of a story, given its arguments behind the
name and what it renders.  An argument without decorators is kept whole.
Otherwise the last decorators are taken, and the other children of the argument
are put together anew in their order, if one of them is more than a comment. -/
inductive OwnContent
    (m : Module) :
    List Node → Option Parameters → Option Node → Prop
  | absent : OwnContent m [] none none
  | whole
      {argument : Node}
      {rest : List Node}
      (plain : argument.kind = .object → Keyed m argument ∧
        ∀ child ∈ argument.namedChildren, givesDecorators m child = false) :
      OwnContent m (argument :: rest) (some (.asWritten argument)) none
  | divided
      {argument last : Node}
      {rest front back : List Node}
      {others : List Member}
      (isObject : argument.kind = .object)
      (keyed : Keyed m argument)
      (children : argument.namedChildren = front ++ last :: back)
      (gives : givesDecorators m last = true)
      (isLast : ∀ child ∈ back, givesDecorators m child = false)
      (remaining : others.map (·.node) =
        argument.namedChildren.filter (!givesDecorators m ·))
      (asRead : ∀ member ∈ others,
        Member.ofNode m member.node = .ok member) :
      OwnContent m (argument :: rest)
        (if others.all (·.isComment) then none else some (.members others))
        (some (givenValue last))

/-- A child is a member as it stands, with its key. -/
theorem ofNode_eq_ok_iff
    {child : Node}
    {member : Member} :
    Member.ofNode m child = .ok member ↔
      ∃ key, m.propertyKey child = .ok key ∧ ⟨child, key, false⟩ = member := by
  unfold Member.ofNode
  simp only [bind_eq_ok, pure_eq_ok]

/-- The member of a child gives decorators if the child does. -/
theorem definesKey_of_ofNode
    {child : Node}
    {member : Member}
    (read : Member.ofNode m child = .ok member) :
    member.definesKey decoratorsKey = givesDecorators m child := by
  obtain ⟨key, keyRead, rfl⟩ := ofNode_eq_ok_iff.1 read
  unfold givesDecorators
  rw [keyRead]
  rfl

theorem value_of_ofNode
    {child : Node}
    {member : Member}
    (read : Member.ofNode m child = .ok member) :
    member.value = givenValue child := by
  obtain ⟨key, -, rfl⟩ := ofNode_eq_ok_iff.1 read
  rfl

/-- Members are read from the nodes they stand for. -/
theorem mapM_ofNode_eq_ok_iff
    {nodes : List Node}
    {members : List Member} :
    nodes.mapM (Member.ofNode m) = .ok members ↔
      members.map (·.node) = nodes ∧
        ∀ member ∈ members, Member.ofNode m member.node = .ok member := by
  induction nodes generalizing members with
  | nil =>
    rw [List.mapM_nil, pure_eq_ok, List.map_eq_nil_iff, eq_comm]
    constructor
    · rintro rfl
      exact ⟨rfl, fun _ isMember => absurd isMember List.not_mem_nil⟩
    · exact And.left
  | cons node nodes nodesHypothesis =>
    simp only [List.mapM_cons, bind_eq_ok, pure_eq_ok, nodesHypothesis,
      List.map_eq_cons_iff]
    constructor
    · rintro ⟨member, read, members, ⟨rfl, asRead⟩, rfl⟩
      have sameNode : member.node = node := by
        obtain ⟨key, -, rfl⟩ := ofNode_eq_ok_iff.1 read
        rfl
      refine ⟨⟨member, members, rfl, sameNode, rfl⟩, ?_⟩
      rw [List.forall_mem_cons, sameNode]
      exact ⟨read, asRead⟩
    · rintro ⟨⟨member, members, rfl, rfl, rfl⟩, asRead⟩
      rw [List.forall_mem_cons] at asRead
      exact ⟨member, asRead.1, members, ⟨rfl, asRead.2⟩, rfl⟩

/-- The members of an object literal can be read if its keys denote
something. -/
theorem exists_ofObject_iff
    {object : Node} :
    (∃ members, Member.ofObject m object = .ok members) ↔ Keyed m object := by
  unfold Member.ofObject Keyed
  rw [exists_mapM_eq_ok_iff]
  simp only [ofNode_eq_ok_iff]
  constructor
  · intro read child isChild
    obtain ⟨-, key, keyRead, -⟩ := read child isChild
    exact ⟨key, keyRead⟩
  · intro keyed child isChild
    obtain ⟨key, keyRead⟩ := keyed child isChild
    exact ⟨_, key, keyRead, rfl⟩

/-- The nodes of members with a property of their nodes. -/
theorem map_node_filter
    {members : List Member}
    (asRead : ∀ member ∈ members, Member.ofNode m member.node = .ok member) :
    (members.filter (!·.definesKey decoratorsKey)).map (·.node) =
      (members.map (·.node)).filter (!givesDecorators m ·) := by
  rw [List.filter_map]
  congr 1
  refine List.filter_congr fun member isMember => ?_
  rw [definesKey_of_ofNode (asRead member isMember)]
  rfl

/-- Members that are read from the same nodes are the same. -/
theorem eq_of_map_node_eq
    {members others : List Member}
    (same : members.map (·.node) = others.map (·.node))
    (asRead : ∀ member ∈ members, Member.ofNode m member.node = .ok member)
    (othersRead : ∀ member ∈ others, Member.ofNode m member.node = .ok member) :
    members = others := by
  have read := mapM_ofNode_eq_ok_iff.2 ⟨same, asRead⟩
  rw [mapM_ofNode_eq_ok_iff.2 ⟨rfl, othersRead⟩, Except.ok.injEq] at read
  exact read.symm

/-- An object literal of which no child gives decorators is kept whole. -/
theorem splitParameters_of_plain
    {argument : Node}
    (plain : argument.kind = .object → Keyed m argument ∧
      ∀ child ∈ argument.namedChildren, givesDecorators m child = false) :
    splitParameters m argument = .ok (some (.asWritten argument), none) := by
  unfold splitParameters
  split
  · rfl
  · rename_i isObject
    rw [bne_iff_ne, not_not] at isObject
    obtain ⟨keyed, noneGives⟩ := plain isObject
    obtain ⟨members, read⟩ := exists_ofObject_iff.2 keyed
    obtain ⟨nodes, asRead⟩ := mapM_ofNode_eq_ok_iff.1 read
    have noDecorators :
        (members.filter (·.definesKey decoratorsKey)).getLast? = none := by
      rw [List.getLast?_eq_none_iff, List.filter_eq_nil_iff]
      intro member isMember
      have isChild : member.node ∈ argument.namedChildren := by
        rw [← nodes]
        exact List.mem_map_of_mem isMember
      rw [definesKey_of_ofNode (asRead member isMember),
        noneGives member.node isChild]
      exact Bool.false_ne_true
    rw [bind_eq_ok]
    refine ⟨members, read, ?_⟩
    rw [noDecorators]
    rfl

/-- The last child that gives decorators is taken from the others. -/
theorem splitParameters_of_divided
    {argument last : Node}
    {front back : List Node}
    {others : List Member}
    (isObject : argument.kind = .object)
    (keyed : Keyed m argument)
    (children : argument.namedChildren = front ++ last :: back)
    (gives : givesDecorators m last = true)
    (isLast : ∀ child ∈ back, givesDecorators m child = false)
    (remaining : others.map (·.node) =
      argument.namedChildren.filter (!givesDecorators m ·))
    (othersRead : ∀ member ∈ others,
      Member.ofNode m member.node = .ok member) :
    splitParameters m argument =
      .ok (if others.all (·.isComment) then none else some (.members others),
        some (givenValue last)) := by
  obtain ⟨members, read⟩ := exists_ofObject_iff.2 keyed
  obtain ⟨nodes, asRead⟩ := mapM_ofNode_eq_ok_iff.1 read
  have kept : members.filter (!·.definesKey decoratorsKey) = others := by
    refine eq_of_map_node_eq ?_ (fun member isKept =>
      asRead member (List.mem_of_mem_filter isKept)) othersRead
    rw [map_node_filter asRead, nodes, remaining]
  rw [children] at nodes
  obtain ⟨before, fromLast, rfl, -, nodes⟩ := List.map_eq_append_iff.1 nodes
  obtain ⟨member, behind, rfl, rfl, rfl⟩ := List.map_eq_cons_iff.1 nodes
  have memberRead := asRead member
    (List.mem_append_right _ List.mem_cons_self)
  have found : ((before ++ member :: behind).filter
      (·.definesKey decoratorsKey)).getLast? = some member := by
    refine getLast?_filter_eq_some.2 ⟨before, behind, rfl, ?_, ?_⟩
    · rw [definesKey_of_ofNode memberRead, gives]
    · intro other isOther
      rw [definesKey_of_ofNode (asRead other (List.mem_append_right _
        (List.mem_cons_of_mem _ isOther)))]
      exact isLast other.node (List.mem_map_of_mem isOther)
  unfold splitParameters
  rw [isObject, if_neg (by decide), bind_eq_ok]
  refine ⟨_, read, ?_⟩
  rw [found]
  simp only [kept, value_of_ofNode memberRead]
  split
  · rfl
  · rfl

/-- An argument can be divided if it is no object literal, or if its keys denote
something. -/
theorem exists_ownContent_iff
    {argument : Node}
    {rest : List Node} :
    (∃ parameters decorators,
        OwnContent m (argument :: rest) parameters decorators) ↔
      (argument.kind = .object → Keyed m argument) := by
  constructor
  · rintro ⟨parameters, decorators, content⟩ isObject
    cases content with
    | whole plain => exact (plain isObject).1
    | divided _ keyed => exact keyed
  · intro keyed
    by_cases isObject : argument.kind = .object
    · cases lastFound :
          (argument.namedChildren.filter (givesDecorators m)).getLast? with
      | none =>
        rw [List.getLast?_eq_none_iff, List.filter_eq_nil_iff] at lastFound
        exact ⟨_, _, .whole fun _ => ⟨keyed isObject, fun child isChild =>
          Bool.eq_false_iff.2 (lastFound child isChild)⟩⟩
      | some last =>
        obtain ⟨front, back, children, gives, isLast⟩ :=
          getLast?_filter_eq_some.1 lastFound
        obtain ⟨members, read⟩ := exists_ofObject_iff.2 (keyed isObject)
        obtain ⟨nodes, asRead⟩ := mapM_ofNode_eq_ok_iff.1 read
        have remaining := map_node_filter asRead
        rw [nodes] at remaining
        exact ⟨_, _, .divided isObject (keyed isObject) children gives isLast
          remaining fun member isKept =>
            asRead member (List.mem_of_mem_filter isKept)⟩
    · exact ⟨_, _, .whole fun same => absurd same isObject⟩

/-- An argument that is divided has keys that denote something, if it is an
object literal. -/
theorem keyed_of_splitParameters
    {argument : Node}
    {own : Option Parameters × Option Node}
    (split : splitParameters m argument = .ok own)
    (isObject : argument.kind = .object) :
    Keyed m argument := by
  unfold splitParameters at split
  rw [isObject, if_neg (by decide), bind_eq_ok] at split
  obtain ⟨members, read, -⟩ := split
  exact exists_ofObject_iff.1 ⟨members, read⟩

/-- Dividing an argument gives what belongs to a story. -/
theorem splitParameters_eq_ok_iff
    {argument : Node}
    {rest : List Node}
    {own : Option Parameters × Option Node} :
    splitParameters m argument = .ok own ↔
      OwnContent m (argument :: rest) own.1 own.2 := by
  have divided {parameters : Option Parameters} {decorators : Option Node}
      (content : OwnContent m (argument :: rest) parameters decorators) :
      splitParameters m argument = .ok (parameters, decorators) := by
    cases content with
    | whole plain => exact splitParameters_of_plain plain
    | divided isObject keyed children gives isLast remaining asRead =>
      exact splitParameters_of_divided isObject keyed children gives isLast
        remaining asRead
  constructor
  · intro split
    obtain ⟨parameters, decorators, content⟩ := exists_ownContent_iff.2
      (keyed_of_splitParameters split)
    have same := divided content
    rw [split, Except.ok.injEq] at same
    rw [same]
    exact content
  · exact divided

/-! ## Stories -/

/-- What a link says about the story it adds: the decoded name, what it renders,
and the division of the arguments behind these. -/
structure IsStory
    (m : Module)
    (link : Link)
    (story : Entry) : Prop where
  arguments : ∃ name rest, link.arguments = name :: story.render :: rest ∧
    m.stringValue name = .ok story.name ∧
    OwnContent m rest story.parameters story.decorators
  comments : story.comments = link.comments

/-- The literals of a link that a story is read from denote something: its name,
and the keys of an object literal behind what it renders. -/
structure Legible (m : Module) (link : Link) : Prop where
  name : ∀ name ∈ link.arguments[0]?, ∃ text, m.stringValue name = .ok text
  keys : ∀ argument ∈ link.arguments[2]?,
    argument.kind = .object → Keyed m argument

/-- The story that is read is the one that the link says. -/
theorem ofLink_eq_some_iff
    {link : Link}
    {story : Entry} :
    ofLink m link = .ok (some story) ↔ IsStory m link story := by
  constructor
  · intro read
    obtain ⟨name, render, rest, arguments⟩ := arguments_of_ofLink read
    unfold ofLink at read
    rw [arguments] at read
    cases rest with
    | nil =>
      simp only [bind_eq_ok, pure_eq_ok, Option.some.injEq] at read
      obtain ⟨text, textRead, own, rfl, rfl⟩ := read
      exact ⟨⟨name, [], arguments, textRead, .absent⟩, rfl⟩
    | cons argument rest =>
      simp only [bind_eq_ok, pure_eq_ok, Option.some.injEq] at read
      obtain ⟨text, textRead, own, split, rfl⟩ := read
      exact ⟨⟨name, argument :: rest, arguments, textRead,
        splitParameters_eq_ok_iff.1 split⟩, rfl⟩
  · rintro ⟨⟨name, rest, arguments, nameRead, content⟩, comments⟩
    obtain ⟨text, render, parameters, decorators, own⟩ := story
    unfold ofLink
    rw [arguments]
    cases rest with
    | nil =>
      cases content
      simp only [bind_eq_ok, pure_eq_ok, Option.some.injEq]
      exact ⟨text, nameRead, _, rfl, by rw [← comments]⟩
    | cons argument rest =>
      have split : splitParameters m argument = .ok (parameters, decorators) :=
        splitParameters_eq_ok_iff.2 content
      simp only [bind_eq_ok, pure_eq_ok, Option.some.injEq]
      exact ⟨text, nameRead, _, split, by rw [← comments]⟩

/-- A link with a name and something to render adds a story exactly when it is
legible. -/
theorem exists_isStory_iff
    {link : Link}
    {name render : Node}
    {rest : List Node}
    (arguments : link.arguments = name :: render :: rest) :
    (∃ story, IsStory m link story) ↔ Legible m link := by
  constructor
  · rintro ⟨story, ⟨name', rest', same, nameRead, content⟩, -⟩
    rw [arguments, List.cons.injEq, List.cons.injEq] at same
    obtain ⟨rfl, -, rfl⟩ := same
    refine ⟨?_, ?_⟩
    · rw [arguments]
      rintro _ ⟨⟩
      exact ⟨story.name, nameRead⟩
    · rw [arguments]
      intro argument isThird
      obtain ⟨further, rfl⟩ := List.head?_eq_some_iff.1
        (List.head?_eq_getElem?.trans isThird)
      exact exists_ownContent_iff.1 ⟨_, _, content⟩
  · rintro ⟨nameLegible, keysLegible⟩
    rw [arguments] at nameLegible keysLegible
    obtain ⟨text, nameRead⟩ := nameLegible name rfl
    have content : ∃ parameters decorators,
        OwnContent m rest parameters decorators := by
      cases rest with
      | nil => exact ⟨_, _, .absent⟩
      | cons argument rest =>
        exact exists_ownContent_iff.2 (keysLegible argument rfl)
    obtain ⟨parameters, decorators, content⟩ := content
    exact ⟨⟨text, render, parameters, decorators, link.comments⟩,
      ⟨name, rest, arguments, nameRead, content⟩, rfl⟩

/-- Links with a name and something to render are read one by one. -/
theorem mapM_ofLink_eq_ok_iff
    {links : List Link}
    {stories : List Entry}
    (arguments : ∀ link ∈ links, ∃ name render rest,
      link.arguments = name :: render :: rest) :
    (∃ parts, links.mapM (ofLink m) = .ok parts ∧
        parts.filterMap id = stories) ↔
      List.Forall₂ (IsStory m) links stories := by
  induction links generalizing stories with
  | nil =>
    simp only [List.mapM_nil, pure_eq_ok, exists_eq_left',
      List.filterMap_nil, List.forall₂_nil_left_iff]
    exact eq_comm
  | cons link links linksHypothesis =>
    rw [List.forall_mem_cons] at arguments
    obtain ⟨⟨name, render, rest, linkArguments⟩, arguments⟩ := arguments
    simp only [List.mapM_cons, bind_eq_ok, pure_eq_ok,
      List.forall₂_cons_left_iff, ← linksHypothesis arguments]
    constructor
    · rintro ⟨_, ⟨first, read, parts, partsRead, rfl⟩, rfl⟩
      obtain ⟨story, rfl, -⟩ := ofLink_of_arguments linkArguments read
      exact ⟨story, _, ofLink_eq_some_iff.1 read, ⟨parts, partsRead, rfl⟩, rfl⟩
    · rintro ⟨story, _, isStory, ⟨parts, partsRead, rfl⟩, rfl⟩
      exact ⟨_, ⟨_, ofLink_eq_some_iff.2 isStory, parts, partsRead, rfl⟩, rfl⟩

/-- A link of a well-formed fragment that adds a story has a name and something
to render. -/
theorem arguments_of_mem_adds
    {fragment : Fragment}
    {link : Link}
    (wellFormed : ∀ link ∈ fragment.links, link.isWellFormed = true)
    (isAdd : link ∈ fragment.adds) :
    ∃ name render rest, link.arguments = name :: render :: rest := by
  obtain ⟨isLink, isAdd⟩ := List.mem_filter.1 isAdd
  rcases Link.cases_of_isWellFormed (wellFormed link isLink) with
    ⟨-, -, -, arguments⟩ | ⟨⟨notAdd, -⟩ | ⟨notAdd, -⟩, -⟩
  · exact arguments
  · rw [isAdd] at notAdd
    contradiction
  · rw [isAdd] at notAdd
    contradiction

/-- The stories of a fragment are read link by link. -/
theorem ofFragment_eq_ok_iff
    {fragment : Fragment}
    {stories : List Entry}
    (wellFormed : ∀ link ∈ fragment.links, link.isWellFormed = true) :
    ofFragment m fragment = .ok stories ↔
      List.Forall₂ (IsStory m) fragment.adds stories := by
  rw [← mapM_ofLink_eq_ok_iff fun link => arguments_of_mem_adds wellFormed]
  unfold ofFragment
  simp only [bind_eq_ok, pure_eq_ok]

/-- The stories of a fragment can be read if its links are legible. -/
theorem exists_ofFragment_iff
    {fragment : Fragment}
    (wellFormed : ∀ link ∈ fragment.links, link.isWellFormed = true) :
    (∃ stories, ofFragment m fragment = .ok stories) ↔
      ∀ link ∈ fragment.adds, Legible m link := by
  have legible : (∀ link ∈ fragment.adds, Legible m link) ↔
      ∀ link ∈ fragment.adds, ∃ part, ofLink m link = .ok part := by
    refine forall₂_congr fun link isAdd => ?_
    obtain ⟨name, render, rest, arguments⟩ :=
      arguments_of_mem_adds wellFormed isAdd
    rw [← exists_isStory_iff arguments]
    constructor
    · rintro ⟨story, isStory⟩
      exact ⟨some story, ofLink_eq_some_iff.2 isStory⟩
    · rintro ⟨part, read⟩
      obtain ⟨story, rfl, -⟩ := ofLink_of_arguments arguments read
      exact ⟨story, ofLink_eq_some_iff.1 read⟩
  rw [legible, ← exists_mapM_eq_ok_iff]
  unfold ofFragment
  simp only [bind_eq_ok, pure_eq_ok]
  constructor
  · rintro ⟨-, parts, read, -⟩
    exact ⟨parts, read⟩
  · rintro ⟨parts, read⟩
    exact ⟨_, parts, read, rfl⟩

/-- Every decorator of a well-formed fragment is taken, in the order of the
links. -/
theorem map_arguments_decorators
    {fragment : Fragment}
    (wellFormed : ∀ link ∈ fragment.links, link.isWellFormed = true) :
    fragment.decorators.map (·.arguments) =
      (fragment.decorators.filterMap (·.arguments.head?)).map ([·]) := by
  have single : ∀ link ∈ fragment.decorators,
      ∃ argument, link.arguments = [argument] := by
    intro link isDecorator
    obtain ⟨isLink, isDecorator⟩ := List.mem_filter.1 isDecorator
    rcases Link.cases_of_isWellFormed (wellFormed link isLink) with
      ⟨-, notDecorator, -⟩ | ⟨-, argument⟩
    · rw [isDecorator] at notDecorator
      contradiction
    · exact argument
  generalize fragment.decorators = links at single
  induction links with
  | nil => rfl
  | cons link links linksHypothesis =>
    rw [List.forall_mem_cons] at single
    obtain ⟨⟨argument, only⟩, single⟩ := single
    rw [List.map_cons, linksHypothesis single, List.filterMap_cons, only]
    rfl

end Story
end StoryMigration
