import StoryMigration.Proofs.MergedPlaces

/-!
# Which members a merge keeps

Merging leaves the last member of every static key, and all members without
one.  Every step takes the member with the new one's key away and adds the new
one, wherever it puts it.
-/

namespace StoryMigration
namespace Story

/-- Two members have the same static key. -/
def Member.sharesKey (a b : Member) : Bool :=
  a.key.isSome && b.key == a.key

/-- A member that stands among others, with no later member of its key. -/
def IsLast (members : List Member) (member : Member) : Prop :=
  ∃ front back, members = front ++ member :: back ∧
    ∀ other ∈ back, member.sharesKey other = false

/-- No two members have the same static key. -/
def Unrepeated (members : List Member) : Prop :=
  members.Pairwise fun a b => a.sharesKey b = false

theorem sharesKey_comm (a b : Member) : a.sharesKey b = b.sharesKey a := by
  unfold Member.sharesKey
  rcases aKey : a.key with _ | aKey <;> rcases bKey : b.key with _ | bKey
  · rfl
  · rfl
  · rfl
  · rw [Option.isSome_some, Option.isSome_some, Bool.true_and, Bool.true_and,
      Bool.beq_comm]

theorem sharesKey_of_key
    {member : Member}
    {key : Text}
    (keyed : member.key = some key)
    (other : Member) :
    member.sharesKey other = (other.key == some key) := by
  unfold Member.sharesKey
  rw [keyed, Option.isSome_some, Bool.true_and]

/-- A merged member stands in for the one that had its key. -/
theorem mergeMember_perm
    {members : List Member}
    (unrepeated : Unrepeated members)
    (member : Member) :
    (mergeMember members member).Perm
      (members.filter (!member.sharesKey ·) ++ [member]) := by
  rcases keyed : member.key with _ | key
  · have all : members.filter (!member.sharesKey ·) = members := by
      rw [List.filter_eq_self]
      intro other _
      unfold Member.sharesKey
      rw [keyed]
      rfl
    rw [mergeMember_unkeyed members keyed, all]
  · have stays {others : List Member} (absent : Absent key others) :
        others.filter (!member.sharesKey ·) = others := by
      rw [List.filter_eq_self]
      intro other isOther
      rw [sharesKey_of_key keyed, beq_eq_false_iff_ne.2 (absent other isOther)]
      rfl
    rcases mergeMember_keyed members keyed with
      ⟨absent, added⟩ | ⟨front, old, back, rfl, frontAbsent, oldKey, changed⟩
    · rw [added, stays absent]
    · have backAbsent : Absent key back := by
        intro other isOther same
        have differs := (List.pairwise_cons.1
          (List.pairwise_append.1 unrepeated).2.1).1 other isOther
        rw [sharesKey_of_key oldKey, same, beq_self_eq_true] at differs
        contradiction
      have without : (front ++ old :: back).filter (!member.sharesKey ·) =
          front ++ back := by
        rw [List.filter_append, List.filter_cons_of_neg, stays frontAbsent,
          stays backAbsent]
        rw [sharesKey_of_key keyed, oldKey, beq_self_eq_true]
        exact Bool.false_ne_true
      rw [without]
      rcases changed with ⟨-, moved⟩ | ⟨-, replaced⟩
      · rw [moved]
      · rw [replaced]
        exact List.perm_middle.trans
          (List.perm_append_singleton member (front ++ back)).symm

theorem Unrepeated.mergeMember
    {members : List Member}
    (unrepeated : Unrepeated members)
    (member : Member) :
    Unrepeated (mergeMember members member) := by
  have symmetric {a b : Member} (differ : a.sharesKey b = false) :
      b.sharesKey a = false := by
    rw [sharesKey_comm]
    exact differ
  refine ((mergeMember_perm unrepeated member).pairwise_iff symmetric).2 ?_
  refine List.pairwise_append.2
    ⟨unrepeated.filter _, List.pairwise_singleton _ _, ?_⟩
  intro other isOther inner isInner
  rw [List.mem_singleton.1 isInner, sharesKey_comm]
  have differs := (List.mem_filter.1 isOther).2
  rw [Bool.not_eq_true'] at differs
  exact differs

/-- One more member is the last of its key, and takes that from the others. -/
theorem isLast_concat
    {members : List Member}
    {added member : Member} :
    IsLast (members ++ [added]) member ↔
      member = added ∨
        IsLast members member ∧ added.sharesKey member = false := by
  constructor
  · rintro ⟨front, back, split, last⟩
    rcases List.eq_nil_or_concat back with rfl | ⟨back, final, rfl⟩
    · left
      have tails := List.append_inj_right' split rfl
      exact (List.singleton_inj.1 tails).symm
    · right
      rw [List.concat_eq_append] at split last
      rw [← List.cons_append, ← List.append_assoc] at split
      obtain ⟨same, sameFinal⟩ := List.append_inj' split rfl
      rw [← List.singleton_inj.1 sameFinal] at last
      refine ⟨⟨front, back, same, fun other isOther => ?_⟩, ?_⟩
      · exact last other (List.mem_append_left _ isOther)
      · rw [sharesKey_comm]
        exact last added (List.mem_append_right _ (List.mem_singleton_self _))
  · rintro (rfl | ⟨⟨front, back, rfl, last⟩, differs⟩)
    · exact ⟨members, [], rfl, fun _ isOther => absurd isOther List.not_mem_nil⟩
    · refine ⟨front, back ++ [added], ?_, fun other isOther => ?_⟩
      · rw [List.append_assoc, List.cons_append]
      · rcases List.mem_append.1 isOther with inBack | new
        · exact last other inBack
        · rw [List.mem_singleton.1 new, sharesKey_comm]
          exact differs

/-- Merging leaves of each key the last member, and all members without a
static key. -/
theorem mem_merge_iff
    (members : List Member) :
    Unrepeated (members.foldl mergeMember []) ∧
      ∀ member, member ∈ members.foldl mergeMember [] ↔
        IsLast members member := by
  induction members using List.reverseRecOn with
  | nil =>
    refine ⟨List.Pairwise.nil, fun member => ?_⟩
    constructor
    · intro isMember
      exact absurd isMember List.not_mem_nil
    · rintro ⟨front, back, split, -⟩
      exact absurd split.symm (by simp)
  | append_singleton members added membersHypothesis =>
    obtain ⟨unrepeated, same⟩ := membersHypothesis
    rw [List.foldl_append, List.foldl_cons, List.foldl_nil]
    refine ⟨unrepeated.mergeMember added, fun member => ?_⟩
    rw [(mergeMember_perm unrepeated added).mem_iff, List.mem_append,
      List.mem_filter, List.mem_singleton, isLast_concat, same,
      Bool.not_eq_true', or_comm]

end Story
end StoryMigration
