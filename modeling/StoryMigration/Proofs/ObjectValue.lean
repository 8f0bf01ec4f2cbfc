import Mathlib.Data.List.Induction
import StoryMigration.Story.Metadata

/-!
# The value of an object literal

Running an object literal takes its members from left to right, and a later
write of a key overrides an earlier one.  For one key only the members matter
that have it as their static key, and those that have no static key.
-/

namespace StoryMigration
namespace Story

open Syntax

/-! ## Running an object literal -/

/-- What running the code gives for the members of an object literal. -/
structure Run (V : Type) where
  /-- The value that a member gives to its key. -/
  value : Member → V
  /-- The key of a member whose key is computed. -/
  key : Member → Text
  /-- The members of the value that is spread. -/
  entries : Member → List (Text × V)

namespace Member

/-- The member stands for all members of a value. -/
def isSpread (member : Member) : Bool :=
  member.spread || member.node.kind == .spreadElement

/-- The member is there for the reader only. -/
def isRemark (member : Member) : Bool :=
  !member.isSpread &&
    (member.node.kind == .comment || member.node.kind == .htmlComment)

/-- The keys that a member writes, with their values.  Static keys of different
text are different keys. -/
def writes {V : Type} (run : Run V) (member : Member) : List (Text × V) :=
  match member.key with
  | some key => [(key, run.value member)]
  | none =>
    if member.isSpread then run.entries member
    else if member.isRemark then []
    else [(run.key member, run.value member)]

/-- The member may write any key. -/
def isOpen (member : Member) : Bool :=
  member.key.isNone && !member.isRemark

end Member

variable {V : Type}

/-- An object after one more write. -/
def update
    (object : Text → Option V)
    (write : Text × V) : Text → Option V :=
  fun key => if key = write.1 then some write.2 else object key

/-- The object that the members of a literal make, from left to right. -/
def object (run : Run V) (members : List Member) : Text → Option V :=
  (members.flatMap (·.writes run)).foldl update fun _ => none

theorem foldl_update
    (writes : List (Text × V))
    (start : Text → Option V)
    (key : Text) :
    writes.foldl update start key =
      (writes.foldl update (fun _ => none) key).or (start key) := by
  induction writes generalizing start with
  | nil => rw [List.foldl_nil, List.foldl_nil, Option.none_or]
  | cons write writes writesHypothesis =>
    rw [List.foldl_cons, List.foldl_cons, writesHypothesis,
      writesHypothesis (update (fun _ => none) write), Option.or_assoc]
    congr 1
    unfold update
    split
    · rfl
    · rfl

/-- What stands behind overrides what stands in front. -/
theorem object_append
    (run : Run V)
    (front back : List Member)
    (key : Text) :
    object run (front ++ back) key =
      (object run back key).or (object run front key) := by
  unfold object
  rw [List.flatMap_append, List.foldl_append, foldl_update]

theorem object_cons
    (run : Run V)
    (member : Member)
    (members : List Member)
    (key : Text) :
    object run (member :: members) key =
      (object run members key).or (object run [member] key) :=
  object_append run [member] members key

theorem object_keyed
    {member : Member}
    {key : Text}
    (run : Run V)
    (keyed : member.key = some key) :
    object run [member] key = some (run.value member) := by
  unfold object Member.writes update
  rw [List.flatMap_singleton, keyed]
  simp

theorem foldl_update_eq_some
    {writes : List (Text × V)}
    {key : Text}
    {value : V}
    (written : writes.foldl update (fun _ => none) key = some value) :
    (key, value) ∈ writes := by
  induction writes using List.reverseRecOn with
  | nil => contradiction
  | append_singleton writes write writesHypothesis =>
    rw [List.foldl_append, List.foldl_cons, List.foldl_nil, update] at written
    split at written
    · rename_i same
      rw [Option.some.injEq] at written
      rw [same, ← written]
      exact List.mem_append_right _ (List.mem_singleton_self _)
    · exact List.mem_append_left _ (writesHypothesis written)

/-- A value of an object has been written by a member. -/
theorem object_eq_some
    {run : Run V}
    {members : List Member}
    {key : Text}
    {value : V}
    (written : object run members key = some value) :
    ∃ member ∈ members, (key, value) ∈ member.writes run :=
  List.mem_flatMap.1 (foldl_update_eq_some written)

/-- A key that a member writes has a value. -/
theorem object_ne_none
    {run : Run V}
    {members : List Member}
    {member : Member}
    {key : Text}
    {value : V}
    (isMember : member ∈ members)
    (writes : (key, value) ∈ member.writes run) :
    object run members key ≠ none := by
  unfold object
  have written : (key, value) ∈ members.flatMap (·.writes run) :=
    List.mem_flatMap.2 ⟨member, isMember, writes⟩
  obtain ⟨front, back, split⟩ := List.append_of_mem written
  rw [split, List.foldl_append, List.foldl_cons, foldl_update, update,
    if_pos rfl]
  cases back.foldl update (fun _ => none) key with
  | none => simp
  | some value => simp

/-! ## Members that matter for one key -/

/-- No member has this static key. -/
def Absent (key : Text) (members : List Member) : Prop :=
  ∀ member ∈ members, member.key ≠ some key

/-- The member has this static key or none. -/
def concerns (key : Text) (member : Member) : Bool :=
  member.key == none || member.key == some key

/-- The members without a static key. -/
def unkeyed (members : List Member) : List Member :=
  members.filter (·.key == none)

@[simp] theorem unkeyed_append
    (front back : List Member) :
    unkeyed (front ++ back) = unkeyed front ++ unkeyed back :=
  List.filter_append _ _

theorem unkeyed_cons_of_key
    {member : Member}
    {key : Text}
    (keyed : member.key = some key)
    (members : List Member) :
    unkeyed (member :: members) = unkeyed members := by
  unfold unkeyed
  rw [List.filter_cons_of_neg (by simp [keyed])]

theorem mem_unkeyed
    {member : Member}
    {members : List Member} :
    member ∈ unkeyed members ↔ member ∈ members ∧ member.key = none := by
  unfold unkeyed
  rw [List.mem_filter, beq_iff_eq]

theorem Absent.append
    {key : Text}
    {front back : List Member}
    (frontAbsent : Absent key front)
    (backAbsent : Absent key back) :
    Absent key (front ++ back) := by
  intro member isMember
  rcases List.mem_append.1 isMember with inFront | inBack
  · exact frontAbsent member inFront
  · exact backAbsent member inBack

theorem Absent.singleton
    {key : Text}
    {member : Member}
    (other : member.key ≠ some key) :
    Absent key [member] := by
  intro inner isMember
  rw [List.mem_singleton.1 isMember]
  exact other

/-- Members without static keys cannot have this one. -/
theorem Absent.unkeyed
    (key : Text)
    (members : List Member) :
    Absent key (unkeyed members) := by
  intro member isMember
  rw [(mem_unkeyed.1 isMember).2]
  simp

/-- Where a static key is absent, only members without a static key matter
for it. -/
theorem Absent.filter_concerns
    {key : Text}
    {members : List Member}
    (absent : Absent key members) :
    members.filter (concerns key) = Story.unkeyed members := by
  apply List.filter_congr
  intro member isMember
  unfold concerns
  rw [beq_eq_false_iff_ne.2 (absent member isMember), Bool.or_false]

/-- Members with other static keys do not matter for a key. -/
theorem object_filter_concerns
    (run : Run V)
    (members : List Member)
    (key : Text) :
    object run (members.filter (concerns key)) key =
      object run members key := by
  induction members with
  | nil => rfl
  | cons member members membersHypothesis =>
    rw [object_cons run member members]
    by_cases matters : concerns key member = true
    · rw [List.filter_cons_of_pos matters, object_cons, membersHypothesis]
    · rw [List.filter_cons_of_neg matters, membersHypothesis]
      rw [Bool.not_eq_true, concerns, Bool.or_eq_false_iff, beq_eq_false_iff_ne,
        beq_eq_false_iff_ne] at matters
      obtain ⟨other, otherEq⟩ := Option.ne_none_iff_exists'.1 matters.1
      have different : key ≠ other := by
        rintro rfl
        exact matters.2 otherEq
      have silent : object run [member] key = none := by
        unfold object Member.writes
        rw [List.flatMap_singleton, otherEq, List.foldl_cons, List.foldl_nil,
          update, if_neg different]
      rw [silent, Option.or_none]

end Story
end StoryMigration
