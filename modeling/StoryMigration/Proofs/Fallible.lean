import Mathlib.Data.List.Forall2

/-!
# Computations that may fail

A composition of two computations has a result exactly when both have one, and
a property that every step of a loop preserves holds at its end.
-/

namespace StoryMigration
namespace Fallible

variable {error : Type}

theorem bind_eq_ok
    {α β : Type}
    {first : Except error α}
    {next : α → Except error β}
    {result : β} :
    first >>= next = .ok result ↔
      ∃ value, first = .ok value ∧ next value = .ok result := by
  cases first with
  | error failure =>
    constructor
    · intro composed
      exact absurd composed (by simp [bind, Except.bind])
    · rintro ⟨value, failed, -⟩
      exact absurd failed (by simp)
  | ok value =>
    constructor
    · intro composed
      exact ⟨value, rfl, composed⟩
    · rintro ⟨value', same, composed⟩
      rw [Except.ok.injEq] at same
      rw [same]
      exact composed

theorem pure_eq_ok
    {α : Type}
    {value result : α} :
    (pure value : Except error α) = .ok result ↔ value = result := by
  simp [pure, Except.pure]

theorem mapError_eq_ok
    {error' α : Type}
    {change : error → error'}
    {first : Except error α}
    {result : α} :
    first.mapError change = .ok result ↔ first = .ok result := by
  cases first with
  | error failure =>
    constructor
    · intro failed
      contradiction
    · intro failed
      contradiction
  | ok value =>
    constructor
    · intro computed
      exact congrArg Except.ok (Except.ok.inj computed)
    · intro computed
      exact congrArg Except.ok (Except.ok.inj computed)

/-- A check of a computation's result passes if there is one that does. -/
theorem any_toOption
    {α : Type}
    {first : Except error α}
    {check : α → Bool} :
    first.toOption.any check = true ↔
      ∃ value, first = .ok value ∧ check value = true := by
  cases first with
  | error failure =>
    constructor
    · intro passes
      contradiction
    · rintro ⟨value, failed, -⟩
      contradiction
  | ok value =>
    constructor
    · intro passes
      exact ⟨value, rfl, passes⟩
    · rintro ⟨other, same, passes⟩
      rw [Except.ok.injEq] at same
      rw [same]
      exact passes

/-- A computation over a list has results exactly when it has one for every
item. -/
theorem exists_mapM_eq_ok_iff
    {α β : Type}
    {compute : α → Except error β}
    {items : List α} :
    (∃ results, items.mapM compute = .ok results) ↔
      ∀ item ∈ items, ∃ result, compute item = .ok result := by
  induction items with
  | nil => exact ⟨fun _ _ isItem => absurd isItem List.not_mem_nil,
      fun _ => ⟨[], rfl⟩⟩
  | cons item items itemsHypothesis =>
    rw [List.forall_mem_cons, ← itemsHypothesis]
    simp only [List.mapM_cons, bind_eq_ok, pure_eq_ok]
    constructor
    · rintro ⟨results, first, firstComputed, rest, restComputed, -⟩
      exact ⟨⟨first, firstComputed⟩, rest, restComputed⟩
    · rintro ⟨⟨first, firstComputed⟩, rest, restComputed⟩
      exact ⟨_, first, firstComputed, rest, restComputed, rfl⟩

/-- Every result of a computation over a list comes from an item. -/
theorem mem_of_mapM
    {α β : Type}
    {compute : α → Except error β}
    {items : List α}
    {results : List β}
    {result : β}
    (computed : items.mapM compute = .ok results)
    (member : result ∈ results) :
    ∃ item ∈ items, compute item = .ok result := by
  induction items generalizing results with
  | nil =>
    rw [List.mapM_nil, pure_eq_ok] at computed
    rw [← computed] at member
    exact absurd member List.not_mem_nil
  | cons item items itemsHypothesis =>
    simp only [List.mapM_cons, bind_eq_ok, pure_eq_ok] at computed
    obtain ⟨first, firstComputed, rest, restComputed, rfl⟩ := computed
    rcases List.mem_cons.1 member with rfl | inRest
    · exact ⟨item, List.mem_cons_self, firstComputed⟩
    · obtain ⟨source, isItem, sourceComputed⟩ :=
        itemsHypothesis restComputed inRest
      exact ⟨source, List.mem_cons_of_mem _ isItem, sourceComputed⟩

/-- Every item of a computation over a list has its result. -/
theorem exists_of_mapM
    {α β : Type}
    {compute : α → Except error β}
    {items : List α}
    {results : List β}
    {item : α}
    (computed : items.mapM compute = .ok results)
    (isItem : item ∈ items) :
    ∃ result ∈ results, compute item = .ok result := by
  induction items generalizing results with
  | nil => exact absurd isItem List.not_mem_nil
  | cons first items itemsHypothesis =>
    simp only [List.mapM_cons, bind_eq_ok, pure_eq_ok] at computed
    obtain ⟨result, firstComputed, rest, restComputed, rfl⟩ := computed
    rcases List.mem_cons.1 isItem with rfl | inRest
    · exact ⟨result, List.mem_cons_self, firstComputed⟩
    · obtain ⟨other, member, otherComputed⟩ :=
        itemsHypothesis restComputed inRest
      exact ⟨other, List.mem_cons_of_mem _ member, otherComputed⟩

/-- An invariant of a loop speaks about the items that have been taken and the
state they led to. -/
theorem foldlM_invariant
    {α state : Type}
    {step : state → α → Except error state}
    {invariant : List α → state → Prop}
    (preserves : ∀ taken current item next, invariant taken current →
      step current item = .ok next → invariant (taken ++ [item]) next)
    (items : List α)
    {taken : List α}
    {first last : state}
    (starts : invariant taken first)
    (runs : items.foldlM step first = .ok last) :
    invariant (taken ++ items) last := by
  induction items generalizing taken first with
  | nil =>
    rw [List.foldlM_nil, pure_eq_ok] at runs
    rw [List.append_nil, ← runs]
    exact starts
  | cons item items itemsHypothesis =>
    rw [List.foldlM_cons, bind_eq_ok] at runs
    obtain ⟨next, stepped, rest⟩ := runs
    have last := itemsHypothesis (preserves taken first item next starts stepped)
      rest
    rwa [List.append_assoc, List.singleton_append] at last

/-! ## Computations that have a result -/

section Results

variable {α β : Type}

theorem exists_bind_eq_ok_iff
    {first : Except error α}
    {next : α → Except error β} :
    (∃ result, first >>= next = .ok result) ↔
      ∃ value, first = .ok value ∧ ∃ result, next value = .ok result := by
  simp only [bind_eq_ok]
  exact ⟨fun ⟨result, value, here, there⟩ => ⟨value, here, result, there⟩,
    fun ⟨value, here, result, there⟩ => ⟨result, value, here, there⟩⟩

/-- What is made of a result is there if the result is. -/
theorem exists_bind_pure_eq_ok_iff
    {first : Except error α}
    {make : α → β} :
    (∃ result, (first >>= fun value => pure (make value)) = .ok result) ↔
      ∃ value, first = .ok value := by
  rw [exists_bind_eq_ok_iff]
  exact ⟨fun ⟨value, computed, _⟩ => ⟨value, computed⟩,
    fun ⟨value, computed⟩ => ⟨value, computed, _, rfl⟩⟩

/-- A loop whose steps succeed whatever has come before succeeds if each of
them does. -/
theorem exists_foldlM_eq_ok_iff
    {step : β → α → Except error β}
    {succeeds : α → Prop}
    (stepSucceeds : ∀ state item,
      (∃ next, step state item = .ok next) ↔ succeeds item)
    (items : List α)
    (first : β) :
    (∃ last, items.foldlM step first = .ok last) ↔
      ∀ item ∈ items, succeeds item := by
  induction items generalizing first with
  | nil => exact ⟨fun _ _ isItem => absurd isItem List.not_mem_nil,
      fun _ => ⟨first, rfl⟩⟩
  | cons item items itemsHypothesis =>
    rw [List.foldlM_cons, exists_bind_eq_ok_iff, List.forall_mem_cons,
      ← stepSucceeds first item]
    constructor
    · rintro ⟨next, stepped, rest⟩
      exact ⟨⟨next, stepped⟩, (itemsHypothesis next).1 rest⟩
    · rintro ⟨⟨next, stepped⟩, rest⟩
      exact ⟨next, stepped, (itemsHypothesis next).2 rest⟩

/-- Choosing items succeeds if the choice does for each of them. -/
theorem exists_filterM_eq_ok_iff
    {choose : α → Except error Bool}
    {items : List α} :
    (∃ chosen, items.filterM choose = .ok chosen) ↔
      ∀ item ∈ items, ∃ answer, choose item = .ok answer := by
  have collected (earlier : List α) :
      (∃ chosen, items.filterAuxM choose earlier = .ok chosen) ↔
        ∀ item ∈ items, ∃ answer, choose item = .ok answer := by
    induction items generalizing earlier with
    | nil => exact ⟨fun _ _ isItem => absurd isItem List.not_mem_nil,
        fun _ => ⟨earlier, rfl⟩⟩
    | cons item items itemsHypothesis =>
      rw [List.filterAuxM, exists_bind_eq_ok_iff, List.forall_mem_cons]
      constructor
      · rintro ⟨answer, chosen, rest⟩
        exact ⟨⟨answer, chosen⟩, (itemsHypothesis _).1 rest⟩
      · rintro ⟨⟨answer, chosen⟩, rest⟩
        exact ⟨answer, chosen, (itemsHypothesis _).2 rest⟩
  rw [← collected [], List.filterM]
  cases items.filterAuxM choose [] with
  | error failure => exact ⟨nofun, nofun⟩
  | ok chosen => exact ⟨fun _ => ⟨_, rfl⟩, fun _ => ⟨_, rfl⟩⟩

end Results

end Fallible
end StoryMigration
