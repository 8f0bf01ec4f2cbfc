import Mathlib.Data.Finset.Card
import Mathlib.Order.Bounds.Basic
import StoryMigration.Proofs.FreshNames

/-!
# Names that are claimed one after another

A claim searches for its name: as long as the name is in use, it gets one more
underscore in front.  The search ends in every pool, because a pool is finite,
and it ends at the first number of underscores that makes the name unused.  So
every claim adds one name, whatever names were given out before, and no name is
given out twice.
-/

namespace StoryMigration
namespace NamePool

open StoryName

/-! ## The search for a name -/

/-- The search from a name ends with a name.  One that is in use leads on to
the same name behind one more underscore. -/
inductive SearchEnds (pool : NamePool) : String → String → Prop
  | found
      {name : String}
      (unused : name ∉ pool.names) :
      SearchEnds pool name name
  | goesOn
      {name result : String}
      (inUse : name ∈ pool.names)
      (rest : SearchEnds pool ("_" ++ name) result) :
      SearchEnds pool name result

theorem SearchEnds.unique
    {pool : NamePool}
    {name first second : String}
    (endsFirst : pool.SearchEnds name first)
    (endsSecond : pool.SearchEnds name second) :
    first = second := by
  induction endsFirst with
  | found unused =>
    cases endsSecond with
    | found _ => rfl
    | goesOn inUse _ => exact absurd inUse unused
  | goesOn inUse _ restHypothesis =>
    cases endsSecond with
    | found unused => exact absurd inUse unused
    | goesOn _ rest => exact restHypothesis rest

/-- The search ends at the first number of underscores that makes the name
unused. -/
theorem searchEnds_prefixed
    {pool : NamePool}
    {used : Nat}
    {candidate : String}
    (smaller : ∀ fewer < used, prefixed fewer candidate ∈ pool.names)
    (unused : prefixed used candidate ∉ pool.names) :
    pool.SearchEnds candidate (prefixed used candidate) := by
  induction used generalizing candidate with
  | zero =>
    rw [prefixed_zero] at unused ⊢
    exact .found unused
  | succ used usedHypothesis =>
    have inUse := smaller 0 (Nat.succ_pos used)
    rw [prefixed_zero] at inUse
    rw [← prefixed_underscore] at unused ⊢
    refine .goesOn inUse (usedHypothesis (fun fewer less => ?_) unused)
    rw [prefixed_underscore]
    exact smaller (fewer + 1) (Nat.succ_lt_succ less)

/-! ## One claim -/

/-- What a claim of a name for a candidate does to a pool.  The search for the
name ends, and with this name alone; the name has as few underscores in front
as make it unused; and the pool gets this name behind those it had. -/
structure IsClaim
    (pool : NamePool)
    (candidate name : String)
    (next : NamePool) : Prop where
  search : ∀ result, pool.SearchEnds candidate result ↔ result = name
  least : ∃ count, name = prefixed count candidate ∧
    IsLeast { count | prefixed count candidate ∉ pool.names } count
  unused : name ∉ pool.names
  names : next.names = pool.names ++ [name]
  size : next.size = pool.size + 1

theorem names_insert
    {pool : NamePool}
    {name : String}
    (unused : name ∉ pool.names) :
    (pool.insert name).names = pool.names ++ [name] := by
  rw [insert, if_neg fun isName => unused (List.contains_iff_mem.1 isName)]

theorem isClaim_claim
    (pool : NamePool)
    (candidate : String) :
    pool.IsClaim candidate (pool.claim candidate).1
      (pool.claim candidate).2 := by
  obtain ⟨used, claimed, unused, smaller⟩ := pool.claim_eq candidate
  have ends := searchEnds_prefixed smaller unused
  rw [claimed]
  refine ⟨fun result => ?_, ⟨used, rfl, unused, ?_⟩, unused,
    names_insert unused, ?_⟩
  · constructor
    · exact fun endsOther => endsOther.unique ends
    · rintro rfl
      exact ends
  · intro other otherUnused
    by_contra less
    exact otherUnused (smaller other (Nat.lt_of_not_le less))
  · unfold size
    rw [names_insert unused, List.length_append, List.length_singleton]

/-! ## Claims one after another -/

/-- Claims names for candidates one after another: the names, and the pool with
all of them. -/
def claimAll (pool : NamePool) : List String → List String × NamePool
  | [] => ([], pool)
  | candidate :: rest =>
    let claimed := pool.claim candidate
    let later := claimed.2.claimAll rest
    (claimed.1 :: later.1, later.2)

/-- The identifiers of stories are claimed one after another. -/
theorem claimStories_eq_claimAll
    (pool : NamePool)
    (names : List (List Char)) :
    pool.claimStories names = (pool.claimAll (names.map identifierOf)).1 := by
  induction names generalizing pool with
  | nil => rfl
  | cons name names namesHypothesis =>
    rw [claimStories, List.map_cons, claimAll]
    exact congrArg _ (namesHypothesis _)

/-- Every one of some names is claimed for its candidate, in the pool that the
claims before it leave. -/
inductive ClaimedInTurn :
    NamePool → List String → List String → NamePool → Prop
  | none
      (pool : NamePool) :
      ClaimedInTurn pool [] [] pool
  | next
      {pool between final : NamePool}
      {candidate name : String}
      {candidates names : List String}
      (claimed : pool.IsClaim candidate name between)
      (later : ClaimedInTurn between candidates names final) :
      ClaimedInTurn pool (candidate :: candidates) (name :: names) final

theorem claimedInTurn_claimAll
    (pool : NamePool)
    (candidates : List String) :
    ClaimedInTurn pool candidates (pool.claimAll candidates).1
      (pool.claimAll candidates).2 := by
  induction candidates generalizing pool with
  | nil => exact .none pool
  | cons candidate candidates candidatesHypothesis =>
    exact .next (pool.isClaim_claim candidate) (candidatesHypothesis _)

theorem ClaimedInTurn.length_eq
    {pool final : NamePool}
    {candidates names : List String}
    (claimed : ClaimedInTurn pool candidates names final) :
    names.length = candidates.length := by
  induction claimed with
  | none => rfl
  | next _ _ laterHypothesis =>
    rw [List.length_cons, List.length_cons, laterHypothesis]

/-- A pool keeps its names, and gets the claimed ones behind them. -/
theorem ClaimedInTurn.names_eq
    {pool final : NamePool}
    {candidates names : List String}
    (claimed : ClaimedInTurn pool candidates names final) :
    final.names = pool.names ++ names := by
  induction claimed with
  | none pool => rw [List.append_nil]
  | next claimed _ laterHypothesis =>
    rw [laterHypothesis, claimed.names, List.append_assoc,
      List.singleton_append]

/-- A pool that has every name once still does after claims. -/
theorem ClaimedInTurn.nodup
    {pool final : NamePool}
    {candidates names : List String}
    (claimed : ClaimedInTurn pool candidates names final)
    (distinct : pool.names.Nodup) :
    final.names.Nodup := by
  induction claimed with
  | none => exact distinct
  | next claimed _ laterHypothesis =>
    refine laterHypothesis ?_
    rw [claimed.names, ← List.concat_eq_append]
    exact distinct.concat claimed.unused

theorem nodup_insert
    {pool : NamePool}
    (distinct : pool.names.Nodup)
    (name : String) :
    (pool.insert name).names.Nodup := by
  by_cases inUse : name ∈ pool.names
  · rw [insert, if_pos (List.contains_iff_mem.2 inUse)]
    exact distinct
  · rw [names_insert inUse, ← List.concat_eq_append]
    exact distinct.concat inUse

/-- A pool has each of the names that it is made of once. -/
theorem nodup_ofList
    (names : List String) :
    (ofList names).names.Nodup := by
  unfold ofList
  have step (pool : NamePool) (distinct : pool.names.Nodup) :
      (names.foldl insert pool).names.Nodup := by
    induction names generalizing pool with
    | nil => exact distinct
    | cons name names namesHypothesis =>
      exact namesHypothesis _ (nodup_insert distinct name)
  exact step ⟨[]⟩ List.nodup_nil

theorem size_ofList
    (names : List String) :
    (ofList names).size = names.toFinset.card := by
  rw [size, ← List.toFinset_card_of_nodup (nodup_ofList names)]
  congr 1
  ext name
  rw [List.mem_toFinset, List.mem_toFinset, mem_ofList]

/-- Any sequence of claims in a pool of any names: every search for a name ends,
at the least number of underscores that makes it unused in the pool at that
moment, and the pool gets that one name behind those that it has.  The claimed
names are distinct, none of them was there before, and all others stay. -/
theorem claims_end_with_new_names
    (existing candidates : List String) :
    ∃ names final,
      (ofList existing).claimAll candidates = (names, final) ∧
      ClaimedInTurn (ofList existing) candidates names final ∧
      names.Nodup ∧
      (∀ name ∈ names, name ∉ existing) ∧
      (∀ name, final.contains name = true ↔ name ∈ existing ∨ name ∈ names) ∧
      final.size = existing.toFinset.card + candidates.length := by
  have claimed := claimedInTurn_claimAll (ofList existing) candidates
  have distinct := claimed.nodup (nodup_ofList existing)
  rw [claimed.names_eq, List.nodup_append] at distinct
  refine ⟨_, _, rfl, claimed, distinct.2.1, ?_, ?_, ?_⟩
  · intro name isClaimed isThere
    exact distinct.2.2 name (mem_ofList.2 isThere) name isClaimed rfl
  · intro name
    rw [contains, List.contains_iff_mem, claimed.names_eq, List.mem_append,
      mem_ofList]
  · rw [size, claimed.names_eq, List.length_append, claimed.length_eq]
    exact congrArg (· + candidates.length) (size_ofList existing)

/-- A name that was given out counts as in use when its turn as a candidate
comes. -/
example : ((ofList ["a"]).claimAll ["a", "_a", "a"]).1 = ["_a", "__a", "___a"] := by
  decide

end NamePool
end StoryMigration
