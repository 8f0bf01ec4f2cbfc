import StoryMigration.Proofs.ObjectValue

/-!
# Where merged parameters stand

Merging takes members one after another.  At every point of it a key that some
members have stands in one place, with the last member that has it, and the
members without a static key keep their order around that place.  The place is
that of the first member with the key that has no spread argument between it
and the last one.
-/

namespace StoryMigration
namespace Story

/-! ## One step of the merge -/

/-- A member with a static key is put behind the others, or takes the place of
the first member with its key; it does so only if no spread argument stands
behind that place. -/
theorem mergeMember_keyed
    {member : Member}
    {key : Text}
    (members : List Member)
    (keyed : member.key = some key) :
    (Absent key members ∧ mergeMember members member = members ++ [member]) ∨
      ∃ front old back, members = front ++ old :: back ∧ Absent key front ∧
        old.key = some key ∧
        ((back.any (·.spread) = true ∧
            mergeMember members member = front ++ back ++ [member]) ∨
          (back.any (·.spread) = false ∧
            mergeMember members member = front ++ member :: back)) := by
  unfold mergeMember
  rw [keyed]
  simp only
  split
  · rename_i notFound
    rw [List.findIdx?_eq_none_iff] at notFound
    left
    refine ⟨fun inner isMember same => ?_, rfl⟩
    have differs := notFound inner isMember
    rw [same, beq_self_eq_true] at differs
    contradiction
  · rename_i index found
    rw [List.findIdx?_eq_some_iff_getElem] at found
    obtain ⟨inside, isKey, before⟩ := found
    right
    refine ⟨members.take index, members[index], members.drop (index + 1), ?_,
      ?_, beq_iff_eq.1 isKey, ?_⟩
    · rw [← List.drop_eq_getElem_cons inside, List.take_append_drop]
    · intro inner isMember same
      obtain ⟨position, positionInside, rfl⟩ := List.mem_iff_getElem.1 isMember
      rw [List.length_take] at positionInside
      rw [List.getElem_take] at same
      have differs := before position (by omega)
      rw [same, beq_self_eq_true] at differs
      exact differs rfl
    · by_cases crossed : (members.drop (index + 1)).any (·.spread) = true
      · left
        rw [if_pos crossed, List.eraseIdx_eq_take_drop_succ]
        exact ⟨crossed, rfl⟩
      · right
        rw [if_neg crossed, List.set_eq_take_append_cons_drop, if_pos inside]
        exact ⟨Bool.not_eq_true _ ▸ crossed, rfl⟩

theorem mergeMember_unkeyed
    {member : Member}
    (members : List Member)
    (unkeyed : member.key = none) :
    mergeMember members member = members ++ [member] := by
  unfold mergeMember
  rw [unkeyed]

/-- Merging a member with another static key changes nothing that matters. -/
theorem filter_concerns_mergeMember
    {member : Member}
    {key other : Text}
    (members : List Member)
    (keyed : member.key = some other)
    (different : other ≠ key) :
    (mergeMember members member).filter (concerns key) =
      members.filter (concerns key) := by
  have irrelevant {inner : Member} (innerKeyed : inner.key = some other) :
      ¬concerns key inner = true := by
    unfold concerns
    rw [innerKeyed, Bool.or_eq_true, beq_iff_eq, beq_iff_eq,
      Option.some.injEq]
    simp [different]
  rcases mergeMember_keyed members keyed with
    ⟨-, added⟩ | ⟨front, old, back, rfl, -, oldKey, changed⟩
  · rw [added, List.filter_append, List.filter_cons_of_neg (irrelevant keyed),
      List.filter_nil, List.append_nil]
  · rw [List.filter_append, List.filter_cons_of_neg (irrelevant oldKey)]
    rcases changed with ⟨-, moved⟩ | ⟨-, replaced⟩
    · rw [moved, List.filter_append, List.filter_append,
        List.filter_cons_of_neg (irrelevant keyed), List.filter_nil,
        List.append_nil]
    · rw [replaced, List.filter_append,
        List.filter_cons_of_neg (irrelevant keyed)]

/-! ## The whole merge -/

/-- Where a key ends up that some members have.  The last member with the key
stands where `between` starts, and nothing from there up to that member is a
spread argument, while every earlier member with the key has one behind it. -/
structure Placed
    (key : Text)
    (merged before between : List Member)
    (last : Member)
    (rest : List Member) : Prop where
  lastKey : last.key = some key
  starts : ∀ first, between.head? = some first → first.key = some key
  place : merged.filter (concerns key) =
    unkeyed before ++ last :: unkeyed (between ++ rest)
  crossed : ∀ front write back, before = front ++ write :: back →
    write.key = some key → ∃ member ∈ back, member.spread = true
  uncrossed : ∀ member ∈ between, member.spread = false
  latest : Absent key rest

/-- What the merge of some members knows about a key: no member has it, or it
has its place. -/
inductive Settled (key : Text) (members merged : List Member) : Prop
  | absent
      (absent : Absent key members)
      (place : merged.filter (concerns key) = unkeyed members)
  | placed
      (before between : List Member)
      (last : Member)
      (rest : List Member)
      (split : members = before ++ (between ++ last :: rest))
      (placed : Placed key merged before between last rest)

/-- Two splits of a list at a member with a key, with the key absent in front,
are one. -/
theorem split_unique
    {key : Text}
    {front front' back back' : List Member}
    {member member' : Member}
    (same : front ++ member :: back = front' ++ member' :: back')
    (keyed : member.key = some key)
    (keyed' : member'.key = some key)
    (absent : Absent key front)
    (absent' : Absent key front') :
    front = front' ∧ member = member' ∧ back = back' := by
  rcases List.append_eq_append_iff.1 same with
    ⟨more, frontEq, backEq⟩ | ⟨more, frontEq, backEq⟩
  · cases more with
    | nil =>
      rw [List.append_nil] at frontEq
      rw [List.nil_append, List.cons.injEq] at backEq
      exact ⟨frontEq.symm, backEq.1, backEq.2⟩
    | cons head more =>
      rw [List.cons_append, List.cons.injEq] at backEq
      have headMember : member ∈ front' := by
        rw [frontEq, backEq.1]
        exact List.mem_append_right _ List.mem_cons_self
      exact absurd keyed (absent' member headMember)
  · cases more with
    | nil =>
      rw [List.append_nil] at frontEq
      rw [List.nil_append, List.cons.injEq] at backEq
      exact ⟨frontEq, backEq.1.symm, backEq.2.symm⟩
    | cons head more =>
      rw [List.cons_append, List.cons.injEq] at backEq
      have headMember : member' ∈ front := by
        rw [frontEq, backEq.1]
        exact List.mem_append_right _ List.mem_cons_self
      exact absurd keyed' (absent member' headMember)

/-- A member without a static key, or with another one, comes behind the place
of a key. -/
theorem Placed.behind
    {key : Text}
    {merged merged' before between rest : List Member}
    {last member : Member}
    (placed : Placed key merged before between last rest)
    (other : member.key ≠ some key)
    (place : merged'.filter (concerns key) =
      merged.filter (concerns key) ++ unkeyed [member]) :
    Placed key merged' before between last (rest ++ [member]) where
  lastKey := placed.lastKey
  starts := placed.starts
  place := by
    rw [place, placed.place, ← List.append_assoc between, unkeyed_append _
      [member], List.append_assoc, List.cons_append]
  crossed := placed.crossed
  uncrossed := placed.uncrossed
  latest := placed.latest.append (.singleton other)

/-- A member whose key is not placed yet is placed at the end. -/
theorem Placed.first
    {key : Text}
    {members merged : List Member}
    {member : Member}
    (keyed : member.key = some key)
    (place : merged.filter (concerns key) = unkeyed members ++ [member])
    (crossed : ∀ front write back, members = front ++ write :: back →
      write.key = some key → ∃ member ∈ back, member.spread = true) :
    Placed key merged members [] member [] where
  lastKey := keyed
  starts first isFirst := by
    rw [List.head?_nil] at isFirst
    contradiction
  place := place
  crossed := crossed
  uncrossed inner isMember := absurd isMember List.not_mem_nil
  latest inner isMember := absurd isMember List.not_mem_nil

theorem unkeyed_around
    {last : Member}
    {key : Text}
    (keyed : last.key = some key)
    (between rest : List Member) :
    unkeyed (between ++ last :: rest) = unkeyed (between ++ rest) := by
  rw [unkeyed_append, unkeyed_append, unkeyed_cons_of_key keyed]

/-- A member with a key stands in front of all members from which the key is
absent on. -/
theorem Absent.suffix
    {key : Text}
    {front back init rest : List Member}
    {write : Member}
    (absent : Absent key rest)
    (keyed : write.key = some key)
    (same : front ++ write :: back = init ++ rest) :
    ∃ more, back = more ++ rest := by
  rcases List.append_eq_append_iff.1 same with
    ⟨more, -, backEq⟩ | ⟨more, -, restEq⟩
  · cases more with
    | nil =>
      have inRest : write ∈ rest := by
        rw [List.nil_append] at backEq
        rw [← backEq]
        exact List.mem_cons_self
      exact absurd keyed (absent write inRest)
    | cons head more =>
      rw [List.cons_append, List.cons.injEq] at backEq
      exact ⟨more, backEq.2⟩
  · have inRest : write ∈ rest := by
      rw [restEq]
      exact List.mem_append_right _ List.mem_cons_self
    exact absurd keyed (absent write inRest)

/-- Behind a spread argument a key is placed anew at the end. -/
theorem Placed.moved
    {key : Text}
    {merged merged' before between rest : List Member}
    {last member spread : Member}
    (placed : Placed key merged before between last rest)
    (keyed : member.key = some key)
    (spreadMember : spread ∈ rest)
    (isSpread : spread.spread = true)
    (place : merged'.filter (concerns key) =
      unkeyed before ++ unkeyed (between ++ rest) ++ [member]) :
    Placed key merged' (before ++ (between ++ last :: rest)) [] member [] := by
  apply Placed.first keyed
  · rw [place, unkeyed_append before, unkeyed_around placed.lastKey]
  · intro front write back same writeKey
    have split : front ++ write :: back =
        (before ++ between ++ [last]) ++ rest := by
      rw [← same, List.append_assoc, List.append_assoc, List.singleton_append]
    obtain ⟨more, backEq⟩ := placed.latest.suffix writeKey split
    rw [backEq]
    exact ⟨spread, List.mem_append_right _ spreadMember, isSpread⟩

/-- Without a spread argument behind it, the place of a key is kept. -/
theorem Placed.replaced
    {key : Text}
    {merged merged' before between rest : List Member}
    {last member : Member}
    (placed : Placed key merged before between last rest)
    (keyed : member.key = some key)
    (lastPlain : last.spread = false)
    (noSpread : ∀ inner ∈ rest, inner.spread = false)
    (place : merged'.filter (concerns key) =
      unkeyed before ++ member :: unkeyed (between ++ rest)) :
    Placed key merged' before (between ++ last :: rest) member [] where
  lastKey := keyed
  starts first isFirst := by
    cases between with
    | nil =>
      rw [List.nil_append, List.head?_cons, Option.some.injEq] at isFirst
      rw [← isFirst]
      exact placed.lastKey
    | cons head tail => exact placed.starts first isFirst
  place := by
    rw [place, List.append_nil, unkeyed_around placed.lastKey]
  crossed := placed.crossed
  uncrossed inner isMember := by
    rcases List.mem_append.1 isMember with inBetween | behind
    · exact placed.uncrossed inner inBetween
    · rcases List.mem_cons.1 behind with rfl | inRest
      · exact lastPlain
      · exact noSpread inner inRest
  latest inner isMember := absurd isMember List.not_mem_nil

/-- Spread arguments have no static key. -/
def Plain (members : List Member) : Prop :=
  ∀ member ∈ members, member.spread = true → member.key = none

/-- A member takes the place that its key has if no spread argument stands
behind it; else it goes to the end. -/
theorem Placed.step
    {key : Text}
    {merged before between rest : List Member}
    {last member : Member}
    (mergedPlain : Plain merged)
    (plain : Plain (before ++ (between ++ last :: rest)))
    (placed : Placed key merged before between last rest)
    (keyed : member.key = some key) :
    Settled key (before ++ (between ++ last :: rest) ++ [member])
      (mergeMember merged member) := by
  have relevant {inner : Member} (innerKeyed : inner.key = some key) :
      concerns key inner = true := by
    unfold concerns
    rw [innerKeyed, beq_self_eq_true, Bool.or_true]
  have spreadRelevant {inner : Member} (isMember : inner ∈ merged)
      (isSpread : inner.spread = true) : concerns key inner = true := by
    unfold concerns
    rw [mergedPlain inner isMember isSpread, beq_self_eq_true, Bool.true_or]
  have place := placed.place
  rcases mergeMember_keyed merged keyed with
    ⟨absent, -⟩ | ⟨front, old, back, mergedEq, frontAbsent, oldKey, changed⟩
  · -- the key has a place, so it cannot be absent
    rw [absent.filter_concerns] at place
    have lastMember : last ∈ unkeyed merged := by
      rw [place]
      exact List.mem_append_right _ List.mem_cons_self
    exact absurd placed.lastKey (Absent.unkeyed key merged last lastMember)
  · rw [mergedEq, List.filter_append, List.filter_cons_of_pos
      (relevant oldKey), frontAbsent.filter_concerns] at place
    obtain ⟨frontEq, -, backEq⟩ := split_unique place oldKey placed.lastKey
      (Absent.unkeyed key front) (Absent.unkeyed key before)
    have inBack {inner : Member} (isMember : inner ∈ back) : inner ∈ merged := by
      rw [mergedEq]
      exact List.mem_append_right _ (List.mem_cons_of_mem _ isMember)
    rcases changed with ⟨someSpread, moved⟩ | ⟨noSpread, replaced⟩
    · obtain ⟨spread, spreadMember, isSpread⟩ := List.any_eq_true.1 someSpread
      have spreadInRest : spread ∈ rest := by
        have found : spread ∈ back.filter (concerns key) :=
          List.mem_filter.2
            ⟨spreadMember, spreadRelevant (inBack spreadMember) isSpread⟩
        rw [backEq, mem_unkeyed, List.mem_append] at found
        rcases found.1 with inBetween | inRest
        · rw [placed.uncrossed spread inBetween] at isSpread
          contradiction
        · exact inRest
      refine .placed _ [] member [] rfl
        (placed.moved keyed spreadInRest isSpread ?_)
      rw [moved, List.filter_append, List.filter_append, backEq,
        frontAbsent.filter_concerns, frontEq,
        List.filter_cons_of_pos (relevant keyed), List.filter_nil]
    · refine .placed before (between ++ last :: rest) member [] ?_
        (placed.replaced keyed ?_ ?_ ?_)
      · rw [List.append_assoc]
      · by_contra isSpread
        rw [Bool.not_eq_false] at isSpread
        have noKey := plain last (by simp) isSpread
        rw [placed.lastKey] at noKey
        contradiction
      · intro inner isMember
        by_contra isSpread
        rw [Bool.not_eq_false] at isSpread
        have noKey := plain inner (by simp [isMember]) isSpread
        have found : inner ∈ back.filter (concerns key) := by
          rw [backEq, mem_unkeyed]
          exact ⟨List.mem_append_right _ isMember, noKey⟩
        have plainBack :=
          List.any_eq_false.1 noSpread inner (List.mem_filter.1 found).1
        exact plainBack isSpread
      · rw [replaced, List.filter_append, frontAbsent.filter_concerns, frontEq,
          List.filter_cons_of_pos (relevant keyed), backEq]

/-- Merging one more member settles every key. -/
theorem Settled.step
    {key : Text}
    {members merged : List Member}
    (member : Member)
    (mergedPlain : Plain merged)
    (plain : Plain members)
    (settled : Settled key members merged) :
    Settled key (members ++ [member]) (mergeMember merged member) := by
  by_cases keyed : member.key = some key
  · cases settled with
    | absent absent place =>
      have mergedAbsent : Absent key merged := by
        intro inner isMember innerKeyed
        have found : inner ∈ merged.filter (concerns key) := by
          rw [List.mem_filter]
          refine ⟨isMember, ?_⟩
          unfold concerns
          rw [innerKeyed, beq_self_eq_true, Bool.or_true]
        rw [place] at found
        exact Absent.unkeyed key members inner found innerKeyed
      rcases mergeMember_keyed merged keyed with
        ⟨-, added⟩ | ⟨front, old, back, mergedEq, -, oldKey, -⟩
      · refine .placed members [] member [] rfl (.first keyed ?_ ?_)
        · rw [added, List.filter_append, place, List.filter_cons_of_pos
            (by simp [concerns, keyed]), List.filter_nil]
        · intro front write back same writeKey
          exact absurd writeKey (absent write (by simp [same]))
      · exact absurd oldKey (mergedAbsent old (by simp [mergedEq]))
    | placed before between last rest split placed =>
      subst split
      exact placed.step mergedPlain plain keyed
  · -- the member does not touch the place of the key
    have place : (mergeMember merged member).filter (concerns key) =
        merged.filter (concerns key) ++ unkeyed [member] := by
      rcases otherKey : member.key with _ | other
      · rw [mergeMember_unkeyed merged otherKey, List.filter_append,
          (Absent.singleton keyed).filter_concerns]
      · have different : other ≠ key := by
          rintro rfl
          exact keyed otherKey
        rw [filter_concerns_mergeMember merged otherKey different,
          unkeyed_cons_of_key otherKey]
        exact (List.append_nil _).symm
    cases settled with
    | absent absent noPlace =>
      refine .absent (absent.append (.singleton keyed)) ?_
      rw [place, noPlace, unkeyed_append]
    | placed before between last rest split placed =>
      refine .placed before between last (rest ++ [member]) ?_
        (placed.behind keyed place)
      rw [split, List.append_assoc, List.append_assoc, List.cons_append]

theorem mem_mergeMember
    {member inner : Member}
    {members : List Member}
    (isMember : inner ∈ mergeMember members member) :
    inner ∈ members ∨ inner = member := by
  cases keyed : member.key with
  | none =>
    rw [mergeMember_unkeyed members keyed, List.mem_append,
      List.mem_singleton] at isMember
    exact isMember
  | some key =>
    rcases mergeMember_keyed members keyed with
      ⟨-, added⟩ | ⟨front, old, back, rfl, -, -, ⟨-, moved⟩ | ⟨-, replaced⟩⟩
    · rw [added, List.mem_append, List.mem_singleton] at isMember
      exact isMember
    · rw [moved] at isMember
      simp only [List.mem_append, List.mem_cons, List.not_mem_nil,
        or_false] at isMember ⊢
      rcases isMember with (inFront | inBack) | new
      · exact .inl (.inl inFront)
      · exact .inl (.inr (.inr inBack))
      · exact .inr new
    · rw [replaced] at isMember
      simp only [List.mem_append, List.mem_cons] at isMember ⊢
      rcases isMember with inFront | new | inBack
      · exact .inl (.inl inFront)
      · exact .inr new
      · exact .inl (.inr (.inr inBack))

theorem mem_foldl_mergeMember
    {members : List Member}
    {inner : Member}
    (isMember : inner ∈ members.foldl mergeMember []) :
    inner ∈ members := by
  induction members using List.reverseRecOn with
  | nil => exact isMember
  | append_singleton members member membersHypothesis =>
    rw [List.foldl_append, List.foldl_cons, List.foldl_nil] at isMember
    rw [List.mem_append, List.mem_singleton]
    rcases mem_mergeMember isMember with before | new
    · exact .inl (membersHypothesis before)
    · exact .inr new

/-- The merge of any members settles every key. -/
theorem settled_merge
    {members : List Member}
    (plain : Plain members)
    (key : Text) :
    Settled key members (members.foldl mergeMember []) := by
  induction members using List.reverseRecOn with
  | nil => exact .absent (fun _ isMember => absurd isMember List.not_mem_nil) rfl
  | append_singleton members member membersHypothesis =>
    have plainBefore : Plain members := fun inner isMember =>
      plain inner (List.mem_append_left _ isMember)
    rw [List.foldl_append, List.foldl_cons, List.foldl_nil]
    exact (membersHypothesis plainBefore).step member
      (fun inner isMember => plainBefore inner (mem_foldl_mergeMember isMember))
      plainBefore

end Story
end StoryMigration
