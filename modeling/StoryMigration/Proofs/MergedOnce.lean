import StoryMigration.Proofs.ParameterUnion

/-!
# What is left of merged parameters

Of all members with one static key a merge leaves the last one, and nothing
else with that key.  Members without a static key, such as spreads, comments
and members under a computed key, are all left, in the order in which they are
written.  Every step of the merge keeps this of the members that it has seen.
-/

namespace StoryMigration
namespace Story

open Syntax Chain Fallible

variable {m : Module}

/-! ## Members of one key -/

/-- The members with a static key. -/
def withKey (key : Text) (members : List Member) : List Member :=
  members.filter (·.key == some key)

theorem mem_withKey
    {key : Text}
    {member : Member}
    {members : List Member} :
    member ∈ withKey key members ↔
      member ∈ members ∧ member.key = some key := by
  unfold withKey
  rw [List.mem_filter, beq_iff_eq]

@[simp] theorem withKey_nil
    (key : Text) :
    withKey key [] = [] := rfl

@[simp] theorem withKey_append
    (key : Text)
    (front back : List Member) :
    withKey key (front ++ back) = withKey key front ++ withKey key back :=
  List.filter_append _ _

theorem withKey_cons_of_key
    {key : Text}
    {member : Member}
    (keyed : member.key = some key)
    (members : List Member) :
    withKey key (member :: members) = member :: withKey key members :=
  List.filter_cons_of_pos (beq_iff_eq.2 keyed)

theorem withKey_cons_of_ne
    {key : Text}
    {member : Member}
    (different : member.key ≠ some key)
    (members : List Member) :
    withKey key (member :: members) = withKey key members :=
  List.filter_cons_of_neg fun same => different (beq_iff_eq.1 same)

theorem Absent.withKey
    {key : Text}
    {members : List Member}
    (absent : Absent key members) :
    Story.withKey key members = [] := by
  rw [List.eq_nil_iff_forall_not_mem]
  intro member isMember
  exact absent member (mem_withKey.1 isMember).1 (mem_withKey.1 isMember).2

/-! ## One step of the merge -/

/-- Merging one more member neither drops nor moves members without a static
key. -/
theorem unkeyed_mergeMember
    (members : List Member)
    (member : Member) :
    unkeyed (mergeMember members member) = unkeyed (members ++ [member]) := by
  rcases keyed : member.key with _ | key
  · rw [mergeMember_unkeyed members keyed]
  · rcases mergeMember_keyed members keyed with
      ⟨-, added⟩ | ⟨front, old, back, rfl, -, oldKey, ⟨-, moved⟩ | ⟨-, replaced⟩⟩
    · rw [added]
    · rw [moved, unkeyed_append, unkeyed_append front, unkeyed_append,
        unkeyed_append front, unkeyed_cons_of_key oldKey]
    · rw [replaced, unkeyed_append, unkeyed_append, unkeyed_append,
        unkeyed_cons_of_key keyed, unkeyed_cons_of_key oldKey,
        unkeyed_cons_of_key keyed]
      exact (List.append_nil _).symm

/-- Merging a member leaves it alone with its key, if there was at most one. -/
theorem withKey_mergeMember
    {key : Text}
    {members : List Member}
    {member : Member}
    (single : (withKey key members).length ≤ 1)
    (keyed : member.key = some key) :
    withKey key (mergeMember members member) = [member] := by
  have alone : withKey key [member] = [member] := withKey_cons_of_key keyed []
  rcases mergeMember_keyed members keyed with
    ⟨absent, added⟩ | ⟨front, old, back, rfl, frontAbsent, oldKey, changed⟩
  · rw [added, withKey_append, absent.withKey, alone, List.nil_append]
  · rw [withKey_append, frontAbsent.withKey, withKey_cons_of_key oldKey,
      List.nil_append, List.length_cons] at single
    have backEmpty : withKey key back = [] :=
      List.eq_nil_of_length_eq_zero (by omega)
    rcases changed with ⟨-, moved⟩ | ⟨-, replaced⟩
    · rw [moved, withKey_append, withKey_append, frontAbsent.withKey, backEmpty,
        alone]
      rfl
    · rw [replaced, withKey_append, frontAbsent.withKey,
        withKey_cons_of_key keyed, backEmpty]
      rfl

/-- Merging a member changes nothing about members with other static keys. -/
theorem withKey_mergeMember_of_ne
    {key : Text}
    {member : Member}
    (members : List Member)
    (different : member.key ≠ some key) :
    withKey key (mergeMember members member) = withKey key members := by
  have silent : withKey key [member] = [] := withKey_cons_of_ne different []
  rcases keyed : member.key with _ | other
  · rw [mergeMember_unkeyed members keyed, withKey_append, silent,
      List.append_nil]
  · rcases mergeMember_keyed members keyed with
      ⟨-, added⟩ | ⟨front, old, back, rfl, -, oldKey, ⟨-, moved⟩ | ⟨-, replaced⟩⟩
    · rw [added, withKey_append, silent, List.append_nil]
    · rw [moved, withKey_append, withKey_append, silent, List.append_nil,
        withKey_append, withKey_cons_of_ne]
      rw [oldKey, ← keyed]
      exact different
    · rw [replaced, withKey_append, withKey_append, withKey_cons_of_ne different,
        withKey_cons_of_ne]
      rw [oldKey, ← keyed]
      exact different

/-! ## The whole merge -/

/-- What a merge leaves of members in the order in which they are written.  No
two members have one static key; of those that are written with a key the last
one is left; all members without a static key are left, as often and in the
order as they are written; and nothing else is there. -/
structure IsMergeOf (written merged : List Member) : Prop where
  single : ∀ key, (withKey key merged).length ≤ 1
  last : ∀ key, withKey key merged = (withKey key written).getLast?.toList
  unkeyed : Story.unkeyed merged = Story.unkeyed written
  among : ∀ member ∈ merged, member ∈ written

/-- One more member keeps what is true of the merge. -/
theorem IsMergeOf.mergeMember
    {written merged : List Member}
    (isMerge : IsMergeOf written merged)
    (member : Member) :
    IsMergeOf (written ++ [member]) (mergeMember merged member) := by
  have last (key : Text) : withKey key (Story.mergeMember merged member) =
      (withKey key (written ++ [member])).getLast?.toList := by
    rw [withKey_append]
    by_cases keyed : member.key = some key
    · rw [withKey_mergeMember (isMerge.single key) keyed,
        withKey_cons_of_key keyed, List.getLast?_append]
      rfl
    · rw [withKey_mergeMember_of_ne merged keyed, withKey_cons_of_ne keyed,
        withKey_nil, List.append_nil]
      exact isMerge.last key
  refine ⟨fun key => ?_, last, ?_, ?_⟩
  · rw [last key]
    exact Option.length_toList_le
  · rw [unkeyed_mergeMember, unkeyed_append, unkeyed_append, isMerge.unkeyed]
  · intro inner isMember
    rw [List.mem_append, List.mem_singleton]
    rcases mem_mergeMember isMember with before | new
    · exact .inl (isMerge.among inner before)
    · exact .inr new

theorem isMergeOf_foldl
    (written : List Member) :
    IsMergeOf written (written.foldl mergeMember []) := by
  induction written using List.reverseRecOn with
  | nil => exact ⟨by simp, by simp, rfl, by simp⟩
  | append_singleton written member writtenHypothesis =>
    rw [List.foldl_append, List.foldl_cons, List.foldl_nil]
    exact writtenHypothesis.mergeMember member

/-! ## Members without a static key -/

/-- The member stands under a computed key. -/
def Member.isComputed (member : Member) : Bool :=
  (member.node.kind == .pair || member.node.kind == .methodDefinition) &&
    (member.node.child? .key <|> member.node.child? .name).any
      (·.kind == .computedName)

/-- What is spread, what is a comment and what stands under a computed key. -/
def Member.isKeyless (member : Member) : Bool :=
  member.isSpread || member.isRemark || member.isComputed

theorem key_eq_none_of_ofNode
    {node : Node}
    {member : Member}
    (read : Member.ofNode m node = .ok member)
    (keyless : member.isKeyless = true) :
    member.key = none := by
  unfold Member.ofNode at read
  rw [bind_eq_ok] at read
  obtain ⟨key, keyRead, made⟩ := read
  rw [pure_eq_ok] at made
  subst made
  simp only [Member.isKeyless, Member.isSpread, Member.isRemark,
    Member.isComputed, Bool.false_or, Bool.or_eq_true, Bool.and_eq_true,
    beq_iff_eq, or_assoc] at keyless
  unfold Module.propertyKey at keyRead
  rcases keyless with spread | ⟨-, comment | html⟩ | ⟨pair | method, computed⟩
  · rw [spread] at keyRead
    exact (Except.ok.inj keyRead).symm
  · rw [comment] at keyRead
    exact (Except.ok.inj keyRead).symm
  · rw [html] at keyRead
    exact (Except.ok.inj keyRead).symm
  · obtain ⟨inner, isKey, innerKind⟩ := (Option.any_eq_true _ _).1 computed
    simp only [pair, isKey, beq_iff_eq.1 innerKind] at keyRead
    exact (Except.ok.inj keyRead).symm
  · obtain ⟨inner, isKey, innerKind⟩ := (Option.any_eq_true _ _).1 computed
    simp only [method, isKey, beq_iff_eq.1 innerKind] at keyRead
    exact (Except.ok.inj keyRead).symm

theorem key_eq_none_of_concatenated
    {links : List Link}
    {written : List Member}
    (read : concatenated m links = .ok written)
    {member : Member}
    (isWritten : member ∈ written)
    (keyless : member.isKeyless = true) :
    member.key = none := by
  obtain ⟨argument, part, argumentRead, inPart⟩ :=
    exists_of_concatenated read isWritten
  unfold Member.ofArgument at argumentRead
  split at argumentRead
  · obtain ⟨node, -, nodeRead⟩ := mem_of_mapM argumentRead inPart
    exact key_eq_none_of_ofNode nodeRead keyless
  · rw [Except.ok.injEq] at argumentRead
    rw [← argumentRead, List.mem_singleton] at inPart
    rw [inPart]

/-! ## The links of a chain -/

/-- Merging reads the members of all links and then merges them one after
another. -/
theorem mergeParameters_eq_map
    {links : List Link}
    (wellFormed : ∀ link ∈ links,
      link.isParameters = true ∧ link.isWellFormed = true) :
    mergeParameters m links =
      (concatenated m links).map (·.foldl mergeMember []) := by
  unfold mergeParameters concatenated
  rw [filterMap_head?_arguments wellFormed]
  dsimp only
  cases (links.flatMap (·.arguments)).mapM (Member.ofArgument m) with
  | error failure => rfl
  | ok parts => rfl

/-- The merged parameters of well-formed links: of each static key that any
link writes the last member, of each other static key none, all members without
a static key in their order, and nothing else.  What is spread, what is a
comment and what stands under a computed key has no static key.  There are no
merged parameters only if a key of some link cannot be read. -/
theorem mergeParameters_leaves_last_writes
    {links : List Link}
    (wellFormed : ∀ link ∈ links,
      link.isParameters = true ∧ link.isWellFormed = true) :
    (∀ failure, concatenated m links = .error failure →
        mergeParameters m links = .error failure) ∧
      ∀ written, concatenated m links = .ok written →
        (∀ member ∈ written, member.isKeyless = true → member.key = none) ∧
        ∃ merged, mergeParameters m links = .ok merged ∧
          IsMergeOf written merged := by
  rw [mergeParameters_eq_map wellFormed]
  constructor
  · intro failure failed
    rw [failed]
    rfl
  · intro written read
    refine ⟨fun member isWritten keyless =>
      key_eq_none_of_concatenated read isWritten keyless,
      written.foldl mergeMember [], ?_, isMergeOf_foldl written⟩
    rw [read]
    rfl

set_option maxRecDepth 100000 in
/-- A key that is written three times, with a spread argument between the first
and the second, and members without a static key in between. -/
theorem mergeParameters_leaves_last_writes_interleaved :
    ∃ m fragment written merged,
      Module.parse? .javascript
        ("storiesOf('A', module).addParameters(\x7b a: 1, ...x, b() \x7b\x7d \x7d)" ++
          ".addParameters(y).addParameters(\x7b /* c */ 'a': 3, [k]: 4, a: 5 \x7d)" ++
          ".add('s', f);\n") = some m ∧
      allFragments m "storiesOf" = .ok [fragment] ∧
      (∀ link ∈ fragment.parameters,
        link.isParameters = true ∧ link.isWellFormed = true) ∧
      concatenated m fragment.parameters = .ok written ∧
      mergeParameters m fragment.parameters = .ok merged ∧
      merged.map (m.text ·.node) =
        ["...x", "b() \x7b\x7d", "y", "/* c */", "a: 5", "[k]: 4"] ∧
      IsMergeOf written merged := by
  generalize sourceEq :
    "storiesOf('A', module).addParameters(\x7b a: 1, ...x, b() \x7b\x7d \x7d)" ++
      ".addParameters(y).addParameters(\x7b /* c */ 'a': 3, [k]: 4, a: 5 \x7d)" ++
      ".add('s', f);\n" = source
  have checked : (Module.parse? .javascript source).any (fun m =>
      (allFragments m "storiesOf").toOption.any fun fragments =>
        fragments.length == 1 && fragments.all fun fragment =>
          fragment.parameters.all (fun link =>
            link.isParameters && link.isWellFormed) &&
          (concatenated m fragment.parameters).toOption.any fun _ =>
            (mergeParameters m fragment.parameters).toOption.any fun merged =>
              merged.map (m.text ·.node) == ["...x", "b() \x7b\x7d", "y",
                "/* c */", "a: 5", "[k]: 4"]) = true := by
    rw [← sourceEq]
    decide +kernel
  obtain ⟨m, parsed, checked⟩ := (Option.any_eq_true _ _).1 checked
  obtain ⟨fragments, found, checked⟩ := any_toOption.1 checked
  rw [Bool.and_eq_true, beq_iff_eq, List.length_eq_one_iff,
    List.all_eq_true] at checked
  obtain ⟨⟨fragment, rfl⟩, checked⟩ := checked
  have checked := checked fragment (List.mem_singleton_self fragment)
  rw [Bool.and_eq_true, List.all_eq_true, any_toOption] at checked
  obtain ⟨wellFormed, written, read, checked⟩ := checked
  obtain ⟨merged, isMerged, texts⟩ := any_toOption.1 checked
  have allWellFormed (link : Link) (isLink : link ∈ fragment.parameters) :
      link.isParameters = true ∧ link.isWellFormed = true := by
    rw [← Bool.and_eq_true]
    exact wellFormed link isLink
  obtain ⟨-, other, otherMerged, isMerge⟩ :=
    (mergeParameters_leaves_last_writes allWellFormed).2 written read
  rw [isMerged, Except.ok.injEq] at otherMerged
  subst otherMerged
  exact ⟨m, fragment, written, merged, parsed, found, allWellFormed, read,
    isMerged, beq_iff_eq.1 texts, isMerge⟩

end Story
end StoryMigration
