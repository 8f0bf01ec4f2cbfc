import StoryMigration.Proofs.CallChain
import StoryMigration.Proofs.Fallible
import StoryMigration.Proofs.MergedPlaces

/-!
# The value of merged parameters

Merging parameters exchanges an earlier member for a later one with the same
key in its place.  That keeps the value exactly when nothing in between may
write the same key: what stands between two members with one key may be a
comment or a member with another static key, but a spread within a literal or a
computed key is overridden by the later of the two only in the source and not
after the merge.
-/

namespace StoryMigration
namespace Story

open Syntax Chain Fallible

variable {V : Type}

/-! ## When the value is kept -/

/-- Between two members with one key, the second the last one with it, and
without a spread argument between them, nothing may write the key, except what
comes again behind them. -/
def KeepsOverrides (members : List Member) : Prop :=
  ∀ key front first between last behind,
    members = front ++ first :: (between ++ last :: behind) →
    first.key = some key → last.key = some key → Absent key behind →
    (∀ member ∈ between, member.spread = false) →
    ∀ member ∈ between, member.isOpen = true → member ∈ behind

/-- The value of a key that is absent comes from members without a static
key. -/
theorem Absent.object_eq
    {key : Text}
    {members : List Member}
    (absent : Absent key members)
    (run : Run V) :
    object run members key = object run (Story.unkeyed members) key := by
  rw [← object_filter_concerns, absent.filter_concerns]

/-- The value of a key that has its place, in the source and after the merge. -/
theorem Placed.object_eq
    {key : Text}
    {merged before between rest : List Member}
    {last : Member}
    (placed : Placed key merged before between last rest)
    (run : Run V) :
    object run (before ++ (between ++ last :: rest)) key =
        (object run rest key).or (some (run.value last)) ∧
      object run merged key =
        (object run rest key).or
          ((object run (unkeyed between) key).or
            (some (run.value last))) := by
  have inSource : object run (last :: rest) key =
      (object run rest key).or (some (run.value last)) := by
    rw [object_cons, object_keyed run placed.lastKey]
  have always (value : Option V) (other : Option V) :
      ((value.or (some (run.value last))).or other) =
        value.or (some (run.value last)) := by
    rw [Option.or_assoc, Option.some_or]
  refine ⟨?_, ?_⟩
  · rw [object_append, object_append, inSource, always, always]
  · rw [← object_filter_concerns run merged, placed.place, object_append,
      object_cons, object_keyed run placed.lastKey, unkeyed_append,
      object_append, placed.latest.object_eq, Option.or_assoc, Option.or_assoc,
      Option.some_or]

theorem writes_eq_nil
    {member : Member}
    (run : Run V)
    (unkeyed : member.key = none)
    (closed : member.isOpen = false) :
    member.writes run = [] := by
  unfold Member.isOpen at closed
  rw [unkeyed, Option.isNone_none, Bool.true_and, Bool.not_eq_false'] at closed
  have notSpread : member.isSpread = false := by
    unfold Member.isRemark at closed
    rw [Bool.and_eq_true, Bool.not_eq_true'] at closed
    exact closed.1
  unfold Member.writes
  rw [unkeyed, notSpread, closed]
  rfl

/-- If every override is kept, what stands between two writes of a key adds
nothing to it. -/
theorem Placed.object_eq_of_keepsOverrides
    {key : Text}
    {merged before between rest : List Member}
    {last : Member}
    (placed : Placed key merged before between last rest)
    (keeps : KeepsOverrides (before ++ (between ++ last :: rest)))
    (run : Run V) :
    object run merged key =
      object run (before ++ (between ++ last :: rest)) key := by
  obtain ⟨inSource, afterMerge⟩ := placed.object_eq run
  rw [inSource, afterMerge]
  rcases behindEq : object run rest key with _ | value
  · have silent : object run (unkeyed between) key = none := by
      by_contra written
      obtain ⟨value, valueEq⟩ := Option.ne_none_iff_exists'.1 written
      obtain ⟨member, isMember, writes⟩ := object_eq_some valueEq
      rw [mem_unkeyed] at isMember
      have isOpen : member.isOpen = true := by
        by_contra closed
        rw [writes_eq_nil run isMember.2 (Bool.not_eq_true _ ▸ closed)] at writes
        exact absurd writes List.not_mem_nil
      cases between with
      | nil => exact absurd isMember.1 List.not_mem_nil
      | cons first between =>
        have firstKey := placed.starts first rfl
        have inBetween : member ∈ between := by
          rcases List.mem_cons.1 isMember.1 with rfl | inside
          · rw [isMember.2] at firstKey
            contradiction
          · exact inside
        have again := keeps key before first between last rest rfl firstKey
          placed.lastKey placed.latest
          (fun inner inside =>
            placed.uncrossed inner (List.mem_cons_of_mem _ inside))
          member inBetween isOpen
        exact object_ne_none again writes behindEq
    rw [silent]
    rfl
  · rfl

open Classical in
/-- A run in which one member alone gives a value to a key, and members with
static keys another one. -/
noncomputable def probe (key : Text) (member : Member) : Run Bool where
  value inner := inner.key.isNone
  key inner := if inner = member then key else default :: key
  entries inner := if inner = member then [(key, true)] else []

theorem probe_writes
    {member : Member}
    {key : Text}
    (unkeyed : member.key = none)
    (isOpen : member.isOpen = true) :
    (key, true) ∈ member.writes (probe key member) := by
  unfold Member.isOpen at isOpen
  rw [unkeyed, Option.isNone_none, Bool.true_and, Bool.not_eq_true'] at isOpen
  unfold Member.writes probe
  rw [unkeyed, isOpen]
  cases member.isSpread with
  | false => simp [unkeyed]
  | true => simp

/-- In such a run nothing else without a static key writes the key. -/
theorem eq_of_probe_writes
    {member inner : Member}
    {key : Text}
    {value : Bool}
    (unkeyed : inner.key = none)
    (writes : (key, value) ∈ inner.writes (probe key member)) :
    inner = member ∧ value = true := by
  have longer : key ≠ default :: key := by
    intro same
    have lengths := congrArg List.length same
    rw [List.length_cons] at lengths
    omega
  unfold Member.writes probe at writes
  rw [unkeyed] at writes
  by_cases same : inner = member
  · subst same
    refine ⟨rfl, ?_⟩
    simp only [if_true] at writes
    split at writes
    · simpa using writes
    · split at writes
      · exact absurd writes List.not_mem_nil
      · simpa [unkeyed] using writes
  · simp only [same, if_false] at writes
    split at writes
    · exact absurd writes List.not_mem_nil
    · split at writes
      · exact absurd writes List.not_mem_nil
      · rw [List.mem_singleton, Prod.mk.injEq] at writes
        exact absurd writes.1 longer

/-- A member between the place of a key and its last write that may write the
key, and does not come again, shows in the value. -/
theorem Placed.object_ne
    {key : Text}
    {merged before between rest : List Member}
    {last member : Member}
    (placed : Placed key merged before between last rest)
    (inBetween : member ∈ between)
    (isOpen : member.isOpen = true)
    (notAgain : member ∉ rest) :
    object (probe key member) merged key ≠
      object (probe key member) (before ++ (between ++ last :: rest)) key := by
  have noKey : member.key = none := by
    unfold Member.isOpen at isOpen
    rw [Bool.and_eq_true, Option.isNone_iff_eq_none] at isOpen
    exact isOpen.1
  obtain ⟨inSource, afterMerge⟩ := placed.object_eq (probe key member)
  have silent : object (probe key member) rest key = none := by
    by_contra written
    obtain ⟨value, valueEq⟩ := Option.ne_none_iff_exists'.1 written
    rw [placed.latest.object_eq] at valueEq
    obtain ⟨inner, isMember, writes⟩ := object_eq_some valueEq
    rw [mem_unkeyed] at isMember
    have same := (eq_of_probe_writes isMember.2 writes).1
    rw [same] at isMember
    exact notAgain isMember.1
  have overridden :
      object (probe key member) (unkeyed between) key = some true := by
    have written : object (probe key member) (unkeyed between) key ≠ none :=
      object_ne_none (mem_unkeyed.2 ⟨inBetween, noKey⟩)
        (probe_writes noKey isOpen)
    obtain ⟨value, valueEq⟩ := Option.ne_none_iff_exists'.1 written
    obtain ⟨inner, isMember, writes⟩ := object_eq_some valueEq
    rw [mem_unkeyed] at isMember
    rw [valueEq, (eq_of_probe_writes isMember.2 writes).2]
  rw [inSource, afterMerge, silent, overridden]
  simp [probe, placed.lastKey]

/-- Two splits of a list at the last member with a key are one. -/
theorem split_unique_last
    {key : Text}
    {front front' back back' : List Member}
    {member member' : Member}
    (same : front ++ member :: back = front' ++ member' :: back')
    (keyed : member.key = some key)
    (keyed' : member'.key = some key)
    (absent : Absent key back)
    (absent' : Absent key back') :
    front = front' ∧ member = member' ∧ back = back' := by
  have reversed := congrArg List.reverse same
  rw [List.reverse_append, List.reverse_append, List.reverse_cons,
    List.reverse_cons, List.append_assoc, List.append_assoc,
    List.singleton_append, List.singleton_append] at reversed
  obtain ⟨backEq, memberEq, frontEq⟩ := split_unique reversed keyed keyed'
    (fun inner isMember => absent inner (List.mem_reverse.1 isMember))
    (fun inner isMember => absent' inner (List.mem_reverse.1 isMember))
  exact ⟨List.reverse_inj.1 frontEq, memberEq, List.reverse_inj.1 backEq⟩

/-- What stands between two writes of a key without a spread argument stands
behind the place of the key. -/
theorem Placed.mem_between
    {key : Text}
    {merged before between rest front middle behind : List Member}
    {last first last' member : Member}
    (placed : Placed key merged before between last rest)
    (split : before ++ (between ++ last :: rest) =
      front ++ first :: (middle ++ last' :: behind))
    (firstKey : first.key = some key)
    (lastKey : last'.key = some key)
    (absent : Absent key behind)
    (noSpread : ∀ inner ∈ middle, inner.spread = false)
    (inMiddle : member ∈ middle) :
    member ∈ between ∧ rest = behind := by
  have regrouped : (before ++ between) ++ last :: rest =
      (front ++ first :: middle) ++ last' :: behind := by
    rw [List.append_assoc, split, List.append_assoc, List.cons_append]
  obtain ⟨same, -, restEq⟩ := split_unique_last regrouped placed.lastKey
    lastKey placed.latest absent
  refine ⟨?_, restEq⟩
  rcases List.append_eq_append_iff.1 same with
    ⟨more, -, betweenEq⟩ | ⟨more, beforeEq, middleEq⟩
  · rw [betweenEq]
    exact List.mem_append_right _ (List.mem_cons_of_mem _ inMiddle)
  · cases more with
    | nil =>
      rw [List.nil_append] at middleEq
      rw [← middleEq]
      exact List.mem_cons_of_mem _ inMiddle
    | cons head more =>
      rw [List.cons_append, List.cons.injEq] at middleEq
      -- a write in front of the place has a spread argument behind it
      rw [← middleEq.1] at beforeEq
      obtain ⟨spread, spreadMember, isSpread⟩ :=
        placed.crossed front first more beforeEq firstKey
      have plain := noSpread spread (by
        rw [middleEq.2]
        exact List.mem_append_left _ spreadMember)
      rw [plain] at isSpread
      contradiction

/-- Merging keeps the value of an object in every run exactly when every
override is kept. -/
theorem object_merge_iff
    {members : List Member}
    (plain : Plain members) :
    (∀ (V : Type) (run : Run V),
        object run (members.foldl mergeMember []) = object run members) ↔
      KeepsOverrides members := by
  constructor
  · intro same key front first between last behind split firstKey lastKey
      absent noSpread member inMiddle isOpen
    by_contra notAgain
    cases settled_merge plain key with
    | absent noneHas _ =>
      exact noneHas first (by simp [split]) firstKey
    | placed before between' last' rest split' placed =>
      obtain ⟨inBetween, restEq⟩ := placed.mem_between
        (split'.symm.trans split) firstKey lastKey absent noSpread inMiddle
      have differs := placed.object_ne inBetween isOpen
        (by rw [restEq]; exact notAgain)
      rw [← split'] at differs
      exact differs (congrFun (same Bool _) key)
  · intro keeps V run
    funext key
    cases settled_merge plain key with
    | absent noneHas place =>
      rw [← object_filter_concerns, place, noneHas.object_eq]
    | placed before between last rest split placed =>
      subst split
      exact placed.object_eq_of_keepsOverrides keeps run

/-! ## The links of a chain -/

variable {m : Module}

/-- The members of all arguments of some links, in source order. -/
def concatenated
    (m : Module)
    (links : List Link) : Except EscapeError (List Member) := do
  let members ← (links.flatMap (·.arguments)).mapM (Member.ofArgument m)
  pure members.flatten

/-- A link for parameters that is well formed has one argument. -/
theorem arguments_of_wellFormed
    {link : Link}
    (isParameters : link.isParameters = true)
    (wellFormed : link.isWellFormed = true) :
    ∃ argument, link.arguments = [argument] := by
  rcases Link.cases_of_isWellFormed wellFormed with
    ⟨-, -, notParameters, -⟩ | ⟨-, arguments⟩
  · rw [isParameters] at notParameters
    contradiction
  · exact arguments

theorem filterMap_head?_arguments
    {links : List Link}
    (wellFormed : ∀ link ∈ links,
      link.isParameters = true ∧ link.isWellFormed = true) :
    links.filterMap (·.arguments.head?) = links.flatMap (·.arguments) := by
  induction links with
  | nil => rfl
  | cons link links linksHypothesis =>
    obtain ⟨isParameters, linkWellFormed⟩ := wellFormed link List.mem_cons_self
    obtain ⟨argument, only⟩ :=
      arguments_of_wellFormed isParameters linkWellFormed
    have rest := linksHypothesis fun other isLink =>
      wellFormed other (List.mem_cons_of_mem _ isLink)
    rw [List.filterMap_cons, List.flatMap_cons, only, rest]
    rfl

/-- Only an argument that is no literal is spread, and it has no key. -/
theorem plain_of_ofArgument
    {argument : Node}
    {members : List Member}
    (read : Member.ofArgument m argument = .ok members) :
    Plain members := by
  intro member isMember isSpread
  unfold Member.ofArgument at read
  split at read
  · obtain ⟨node, -, nodeRead⟩ := mem_of_mapM read isMember
    unfold Member.ofNode at nodeRead
    rw [bind_eq_ok] at nodeRead
    obtain ⟨key, -, made⟩ := nodeRead
    rw [pure_eq_ok] at made
    rw [← made] at isSpread
    contradiction
  · rw [Except.ok.injEq] at read
    rw [← read, List.mem_singleton] at isMember
    rw [isMember]

/-- Every written member comes from an argument. -/
theorem exists_of_concatenated
    {links : List Link}
    {members : List Member}
    (read : concatenated m links = .ok members)
    {member : Member}
    (isMember : member ∈ members) :
    ∃ argument part, Member.ofArgument m argument = .ok part ∧
      member ∈ part := by
  unfold concatenated at read
  rw [bind_eq_ok] at read
  obtain ⟨parts, partsRead, made⟩ := read
  rw [pure_eq_ok] at made
  rw [← made, List.mem_flatten] at isMember
  obtain ⟨part, isPart, inPart⟩ := isMember
  obtain ⟨argument, -, argumentRead⟩ := mem_of_mapM partsRead isPart
  exact ⟨argument, part, argumentRead, inPart⟩

theorem plain_of_concatenated
    {links : List Link}
    {members : List Member}
    (read : concatenated m links = .ok members) :
    Plain members := by
  intro member isMember
  obtain ⟨argument, part, argumentRead, inPart⟩ :=
    exists_of_concatenated read isMember
  exact plain_of_ofArgument argumentRead member inPart

/-- The merged parameters of well-formed links have the value of all their
arguments, one behind the other, in every run exactly when no member that may
write any key stands between two members with one key, unless a spread argument
stands there too or the member comes again. -/
theorem object_mergeParameters_iff
    {links : List Link}
    {members : List Member}
    (wellFormed : ∀ link ∈ links,
      link.isParameters = true ∧ link.isWellFormed = true)
    (read : concatenated m links = .ok members) :
    ∃ merged, mergeParameters m links = .ok merged ∧
      ((∀ (V : Type) (run : Run V),
          object run merged = object run members) ↔
        KeepsOverrides members) := by
  have plain := plain_of_concatenated read
  refine ⟨members.foldl mergeMember [], ?_, object_merge_iff plain⟩
  unfold concatenated at read
  rw [bind_eq_ok] at read
  obtain ⟨parts, partsRead, made⟩ := read
  rw [pure_eq_ok] at made
  unfold mergeParameters
  rw [filterMap_head?_arguments wellFormed, bind_eq_ok]
  exact ⟨parts, partsRead, by rw [pure_eq_ok, made]⟩

set_option maxRecDepth 100000 in
/-- A repeated key among literals without spreads keeps the value. -/
theorem object_mergeParameters_repeated_key :
    ∃ m fragment members merged,
      Module.parse? .javascript
        ("storiesOf('A', module).addParameters(\x7b a: 1, b: 2 \x7d)" ++
          ".addParameters(\x7b a: 3 \x7d).add('s', f);\n") = some m ∧
      allFragments m "storiesOf" = .ok [fragment] ∧
      (∀ link ∈ fragment.parameters,
        link.isParameters = true ∧ link.isWellFormed = true) ∧
      concatenated m fragment.parameters = .ok members ∧ members.length = 3 ∧
      mergeParameters m fragment.parameters = .ok merged ∧
      ∀ (V : Type) (run : Run V), object run merged = object run members := by
  generalize sourceEq :
    "storiesOf('A', module).addParameters(\x7b a: 1, b: 2 \x7d)" ++
      ".addParameters(\x7b a: 3 \x7d).add('s', f);\n" = source
  have checked : (Module.parse? .javascript source).any (fun m =>
      (allFragments m "storiesOf").toOption.any fun fragments =>
        fragments.length == 1 && fragments.all fun fragment =>
          fragment.parameters.all (fun link =>
            link.isParameters && link.isWellFormed) &&
          (concatenated m fragment.parameters).toOption.any fun members =>
            members.length == 3 && members.all fun member =>
              !member.isOpen) = true := by
    rw [← sourceEq]
    decide +kernel
  obtain ⟨m, parsed, checked⟩ := (Option.any_eq_true _ _).1 checked
  obtain ⟨fragments, found, checked⟩ := any_toOption.1 checked
  rw [Bool.and_eq_true, beq_iff_eq, List.length_eq_one_iff,
    List.all_eq_true] at checked
  obtain ⟨⟨fragment, rfl⟩, checked⟩ := checked
  have checked := checked fragment (List.mem_singleton_self fragment)
  rw [Bool.and_eq_true, List.all_eq_true, any_toOption] at checked
  obtain ⟨wellFormed, members, read, checked⟩ := checked
  rw [Bool.and_eq_true, beq_iff_eq, List.all_eq_true] at checked
  obtain ⟨three, closed⟩ := checked
  have allWellFormed (link : Link) (isLink : link ∈ fragment.parameters) :
      link.isParameters = true ∧ link.isWellFormed = true := by
    rw [← Bool.and_eq_true]
    exact wellFormed link isLink
  obtain ⟨merged, isMerged, same⟩ :=
    object_mergeParameters_iff allWellFormed read
  refine ⟨m, fragment, members, merged, parsed, found, allWellFormed, read,
    three, isMerged, same.2 ?_⟩
  intro key front first between last behind split _ _ _ _ member inBetween
    isOpen
  have isClosed := closed member (by simp [split, inBetween])
  rw [isOpen] at isClosed
  contradiction

set_option maxRecDepth 100000 in
/-- A spread within a literal between two writes of a key overrides the later
write after the merge, and not in the source. -/
theorem object_mergeParameters_spread_between :
    ∃ m fragment members merged,
      Module.parse? .javascript
        ("storiesOf('A', module).addParameters(\x7b a: 1 \x7d)" ++
          ".addParameters(\x7b ...x \x7d).addParameters(\x7b a: 2 \x7d)" ++
          ".add('s', f);\n") = some m ∧
      allFragments m "storiesOf" = .ok [fragment] ∧
      (∀ link ∈ fragment.parameters,
        link.isParameters = true ∧ link.isWellFormed = true) ∧
      concatenated m fragment.parameters = .ok members ∧
      mergeParameters m fragment.parameters = .ok merged ∧
      ∃ run : Run Bool, object run merged ≠ object run members := by
  generalize sourceEq :
    "storiesOf('A', module).addParameters(\x7b a: 1 \x7d)" ++
      ".addParameters(\x7b ...x \x7d).addParameters(\x7b a: 2 \x7d)" ++
      ".add('s', f);\n" = source
  -- the spread writes the key that stands on both sides of it
  let run : Run Bool :=
    ⟨fun _ => false, fun _ => [], fun _ => [(.ofString "a", true)]⟩
  have checked : (Module.parse? .javascript source).any (fun m =>
      (allFragments m "storiesOf").toOption.any fun fragments =>
        fragments.length == 1 && fragments.all fun fragment =>
          fragment.parameters.all (fun link =>
            link.isParameters && link.isWellFormed) &&
          (concatenated m fragment.parameters).toOption.any fun members =>
            (mergeParameters m fragment.parameters).toOption.any fun merged =>
              object run merged (.ofString "a") == some true &&
                object run members (.ofString "a") == some false) = true := by
    rw [← sourceEq]
    decide +kernel
  obtain ⟨m, parsed, checked⟩ := (Option.any_eq_true _ _).1 checked
  obtain ⟨fragments, found, checked⟩ := any_toOption.1 checked
  rw [Bool.and_eq_true, beq_iff_eq, List.length_eq_one_iff,
    List.all_eq_true] at checked
  obtain ⟨⟨fragment, rfl⟩, checked⟩ := checked
  have checked := checked fragment (List.mem_singleton_self fragment)
  rw [Bool.and_eq_true, List.all_eq_true, any_toOption] at checked
  obtain ⟨wellFormed, members, read, checked⟩ := checked
  obtain ⟨merged, isMerged, checked⟩ := any_toOption.1 checked
  rw [Bool.and_eq_true, beq_iff_eq, beq_iff_eq] at checked
  refine ⟨m, fragment, members, merged, parsed, found, ?_, read, isMerged, run,
    ?_⟩
  · intro link isLink
    rw [← Bool.and_eq_true]
    exact wellFormed link isLink
  · intro same
    have values := checked.1.symm.trans ((congrFun same _).trans checked.2)
    contradiction

end Story
end StoryMigration
