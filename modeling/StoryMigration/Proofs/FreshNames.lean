import Mathlib.Data.List.Nodup
import Mathlib.Data.List.Perm.Subperm
import StoryMigration.Story.NamePool

/-!
# Names that are not in use

A name is claimed with as few underscores in front as make it unused.  So names
that are claimed one after another are distinct and were not in use, and a name
that is claimed often enough takes every number of underscores.
-/

namespace StoryMigration
namespace NamePool

open StoryName

/-! ## Underscores in front -/

/-- A name behind some underscores. -/
def prefixed (count : Nat) (name : String) : String :=
  String.ofList (List.replicate count '_') ++ name

theorem toList_prefixed
    (count : Nat)
    (name : String) :
    (prefixed count name).toList = List.replicate count '_' ++ name.toList := by
  rw [prefixed, String.toList_append, String.toList_ofList]

@[simp] theorem prefixed_zero
    (name : String) :
    prefixed 0 name = name := by
  apply String.toList_injective
  rw [toList_prefixed, List.replicate_zero, List.nil_append]

theorem prefixed_underscore
    (count : Nat)
    (name : String) :
    prefixed count ("_" ++ name) = prefixed (count + 1) name := by
  apply String.toList_injective
  rw [toList_prefixed, toList_prefixed, String.toList_append,
    List.replicate_succ', List.append_assoc]
  rfl

theorem prefixed_injective
    (name : String) :
    Function.Injective (prefixed · name) := by
  intro first second same
  have lengths := congrArg (fun text => text.toList.length) same
  simp only [toList_prefixed, List.length_append, List.length_replicate]
    at lengths
  exact Nat.add_right_cancel lengths

/-! ## The names of a pool -/

theorem mem_insert
    {pool : NamePool}
    {name other : String} :
    other ∈ (pool.insert name).names ↔ other ∈ pool.names ∨ other = name := by
  unfold insert
  split
  · rename_i isName
    rw [List.contains_iff_mem] at isName
    constructor
    · exact Or.inl
    · rintro (member | rfl)
      · exact member
      · exact isName
  · rw [List.mem_append, List.mem_singleton]

theorem mem_foldl_insert
    {pool : NamePool}
    {names : List String}
    {name : String} :
    name ∈ (names.foldl insert pool).names ↔
      name ∈ pool.names ∨ name ∈ names := by
  induction names generalizing pool with
  | nil => simp
  | cons first names namesHypothesis =>
    rw [List.foldl_cons, namesHypothesis, mem_insert, List.mem_cons, or_assoc]

/-- A pool has the names that it is made of. -/
theorem mem_ofList
    {names : List String}
    {name : String} :
    name ∈ (ofList names).names ↔ name ∈ names := by
  unfold ofList
  rw [mem_foldl_insert]
  simp

/-! ## Claiming one name -/

/-- Underscores are put in front until the name is unused or there are as many
of them as allowed. -/
theorem fresh_eq
    (pool : NamePool)
    (count : Nat)
    (candidate : String) :
    ∃ used ≤ count, pool.fresh count candidate = prefixed used candidate ∧
      (∀ fewer < used, prefixed fewer candidate ∈ pool.names) ∧
      (used < count → prefixed used candidate ∉ pool.names) := by
  induction count generalizing candidate with
  | zero =>
    refine ⟨0, Nat.le_refl 0, (prefixed_zero candidate).symm, ?_, ?_⟩
    · exact fun fewer less => absurd less (Nat.not_lt_zero fewer)
    · exact fun less => absurd less (Nat.lt_irrefl 0)
  | succ count countHypothesis =>
    by_cases inUse : pool.contains candidate = true
    · obtain ⟨used, bound, freshEq, smaller, unused⟩ :=
        countHypothesis ("_" ++ candidate)
      refine ⟨used + 1, Nat.succ_le_succ bound, ?_, ?_, ?_⟩
      · rw [fresh, if_pos inUse, freshEq, prefixed_underscore]
      · intro fewer less
        cases fewer with
        | zero =>
          rw [prefixed_zero]
          exact List.contains_iff_mem.1 inUse
        | succ fewer =>
          rw [← prefixed_underscore]
          exact smaller fewer (Nat.lt_of_succ_lt_succ less)
      · intro less
        rw [← prefixed_underscore]
        exact unused (Nat.lt_of_succ_lt_succ less)
    · refine ⟨0, Nat.zero_le _, ?_, ?_, ?_⟩
      · rw [fresh, if_neg inUse, prefixed_zero]
      · exact fun fewer less => absurd less (Nat.not_lt_zero fewer)
      · intro _
        rw [prefixed_zero, ← List.contains_iff_mem]
        exact inUse

/-- Not all of more candidates than there are names are in use. -/
theorem exists_prefixed_unused
    (pool : NamePool)
    (candidate : String) :
    ∃ used ≤ pool.size, prefixed used candidate ∉ pool.names := by
  by_contra allUsed
  push Not at allUsed
  have distinct :
      ((List.range (pool.size + 1)).map (prefixed · candidate)).Nodup :=
    List.Nodup.map (prefixed_injective candidate) List.nodup_range
  have within : (List.range (pool.size + 1)).map (prefixed · candidate) ⊆
      pool.names := by
    intro name isCandidate
    obtain ⟨used, isSmall, rfl⟩ := List.mem_map.1 isCandidate
    exact allUsed used (Nat.le_of_lt_succ (List.mem_range.1 isSmall))
  have bound := List.Nodup.length_le_of_subset distinct within
  rw [List.length_map, List.length_range] at bound
  exact Nat.not_succ_le_self _ bound

/-- A claimed name is the candidate behind the smallest number of underscores
that makes it unused. -/
theorem claim_eq
    (pool : NamePool)
    (candidate : String) :
    ∃ used, pool.claim candidate =
        (prefixed used candidate, pool.insert (prefixed used candidate)) ∧
      prefixed used candidate ∉ pool.names ∧
      ∀ fewer < used, prefixed fewer candidate ∈ pool.names := by
  obtain ⟨used, bound, freshEq, smaller, unused⟩ :=
    pool.fresh_eq pool.size candidate
  refine ⟨used, ?_, ?_, smaller⟩
  · rw [claim, freshEq]
  · rcases Nat.lt_or_eq_of_le bound with less | rfl
    · exact unused less
    · obtain ⟨free, freeBound, isFree⟩ := pool.exists_prefixed_unused candidate
      rcases Nat.lt_or_eq_of_le freeBound with less | rfl
      · exact absurd (smaller free less) isFree
      · exact isFree

/-! ## Claiming names for stories -/

/-- The names of the first story and of the others. -/
theorem claimStories_cons
    (pool : NamePool)
    (name : List Char)
    (names : List (List Char)) :
    ∃ used, pool.claimStories (name :: names) =
        prefixed used (identifierOf name) ::
          (pool.insert (prefixed used (identifierOf name))).claimStories
            names ∧
      prefixed used (identifierOf name) ∉ pool.names ∧
      ∀ fewer < used, prefixed fewer (identifierOf name) ∈ pool.names := by
  obtain ⟨used, claimed, unused, smaller⟩ :=
    pool.claim_eq (identifierOf name)
  refine ⟨used, ?_, unused, smaller⟩
  rw [claimStories, claimStory, claimed]

/-- No claimed name was in use. -/
theorem not_mem_of_mem_claimStories
    {pool : NamePool}
    {names : List (List Char)}
    {identifier : String}
    (claimed : identifier ∈ pool.claimStories names) :
    identifier ∉ pool.names := by
  induction names generalizing pool with
  | nil => exact absurd claimed List.not_mem_nil
  | cons name names namesHypothesis =>
    obtain ⟨used, claims, unused, -⟩ := pool.claimStories_cons name names
    rw [claims] at claimed
    rcases List.mem_cons.1 claimed with rfl | later
    · exact unused
    · exact fun inUse => namesHypothesis later (mem_insert.2 (.inl inUse))

/-- No name is claimed twice. -/
theorem nodup_claimStories
    (pool : NamePool)
    (names : List (List Char)) :
    (pool.claimStories names).Nodup := by
  induction names generalizing pool with
  | nil => exact List.nodup_nil
  | cons name names namesHypothesis =>
    obtain ⟨used, claims, -⟩ := pool.claimStories_cons name names
    rw [claims, List.nodup_cons]
    refine ⟨fun again => ?_, namesHypothesis _⟩
    exact not_mem_of_mem_claimStories again (mem_insert.2 (.inr rfl))

/-- Every claimed name is the identifier of a story behind underscores. -/
theorem eq_prefixed_of_mem_claimStories
    {pool : NamePool}
    {names : List (List Char)}
    {identifier : String}
    (claimed : identifier ∈ pool.claimStories names) :
    ∃ name ∈ names, ∃ used,
      identifier = prefixed used (identifierOf name) := by
  induction names generalizing pool with
  | nil => exact absurd claimed List.not_mem_nil
  | cons name names namesHypothesis =>
    obtain ⟨used, claims, -⟩ := pool.claimStories_cons name names
    rw [claims] at claimed
    rcases List.mem_cons.1 claimed with rfl | later
    · exact ⟨name, List.mem_cons_self, used, rfl⟩
    · obtain ⟨other, isName, rest⟩ := namesHypothesis later
      exact ⟨other, List.mem_cons_of_mem _ isName, rest⟩

/-- Stories of one name take one number of underscores after another. -/
theorem mem_claimStories_replicate
    {pool : NamePool}
    {name : List Char}
    {bound taken count : Nat}
    (inUse : ∀ fewer < bound, prefixed fewer (identifierOf name) ∈ pool.names)
    (less : taken < bound + count) :
    prefixed taken (identifierOf name) ∈ pool.names ∨
      prefixed taken (identifierOf name) ∈
        pool.claimStories (List.replicate count name) := by
  induction count generalizing pool bound with
  | zero => exact .inl (inUse taken less)
  | succ count countHypothesis =>
    rw [List.replicate_succ]
    obtain ⟨used, claims, unused, smaller⟩ :=
      pool.claimStories_cons name (List.replicate count name)
    rw [claims]
    have inUseNow : ∀ fewer < bound + 1, prefixed fewer (identifierOf name) ∈
        (pool.insert (prefixed used (identifierOf name))).names := by
      intro fewer isLess
      rw [mem_insert]
      rcases Nat.lt_or_eq_of_le (Nat.le_of_lt_succ isLess) with before | rfl
      · exact .inl (inUse fewer before)
      · rcases Nat.lt_trichotomy fewer used with below | rfl | above
        · exact .inl (smaller fewer below)
        · exact .inr rfl
        · exact absurd (inUse used above) unused
    rcases countHypothesis inUseNow (by omega) with before | later
    · rcases mem_insert.1 before with old | same
      · exact .inl old
      · rw [same]
        exact .inr List.mem_cons_self
    · exact .inr (List.mem_cons_of_mem _ later)

end NamePool
end StoryMigration
