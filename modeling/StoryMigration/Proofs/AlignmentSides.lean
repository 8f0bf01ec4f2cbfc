import Mathlib.Data.List.Chain
import StoryMigration.Diff.Alignment

/-!
# Sides of an alignment

The parts of an alignment have the two lists as their sides. Every part has items, and no two changes
stand side by side. A list is aligned with itself without any change: of all runs that a list has in
common with itself, the first longest one stands at the same place in both.
-/

namespace StoryMigration
namespace Diff

variable {α : Type}

/-- Something stands in place of something else. -/
def Part.isChange : Part α → Bool
  | kept _ => false
  | changed _ _ => true

/-- A part has items. -/
def Part.Proper (part : Part α) : Prop := part.before ≠ [] ∨ part.after ≠ []

/-- Two parts are not both changes. -/
def Part.Apart (one other : Part α) : Prop := one.isChange = false ∨ other.isChange = false

/-- Where nothing is changed the sides are the same. -/
theorem flatMap_before_eq_after {parts : List (Part α)}
    (kept : ∀ part ∈ parts, part.isChange = false) :
    parts.flatMap Part.before = parts.flatMap Part.after := by
  refine List.flatMap_congr fun part mem => ?_
  cases part with
  | kept items => rfl
  | changed items others => exact Bool.noConfusion (kept _ mem)

theorem flatMap_before_change (before after : List α) :
    (change before after).flatMap Part.before = before := by
  unfold change
  split <;> simp_all [Part.before]

theorem flatMap_after_change (before after : List α) :
    (change before after).flatMap Part.after = after := by
  unfold change
  split <;> simp_all [Part.after]

theorem proper_of_mem_change {before after : List α} {part : Part α}
    (mem : part ∈ change before after) : part.Proper := by
  unfold change at mem
  split at mem
  · cases mem
  next present =>
    obtain rfl := List.mem_singleton.1 mem
    simpa [Part.Proper, Part.before, Part.after, imp_iff_not_or] using present

theorem isChain_change (before after : List α) :
    (change before after).IsChain Part.Apart := by
  unfold change
  split
  · exact .nil
  · exact .singleton _

section sides

variable [BEq α]

theorem take_commonStart [LawfulBEq α] (before after : List α) :
    before.take (commonStart before after) = after.take (commonStart before after) := by
  fun_induction commonStart before after with
  | case1 a before b after same ih =>
    rw [List.take_succ_cons, List.take_succ_cons, ih, eq_of_beq same]
  | case2 => rfl
  | case3 => rfl

theorem commonStart_le (before after : List α) : commonStart before after ≤ before.length := by
  fun_induction commonStart before after with
  | case1 a before b after same ih => exact Nat.succ_le_succ ih
  | case2 => exact Nat.zero_le _
  | case3 => exact Nat.zero_le _

theorem flatMap_before_align (ignored : α → Bool) (fuel : Nat) (before after : List α) :
    (align ignored fuel before after).flatMap Part.before = before := by
  fun_induction align ignored fuel before after with
  | case1 before after => exact flatMap_before_change before after
  | case2 before after fuel i j start length none => exact flatMap_before_change before after
  | case3 before after fuel i j start length some left right =>
    rw [List.flatMap_append, List.flatMap_cons, left, right, Part.before, ← List.drop_drop,
      List.take_append_drop, List.take_append_drop]

theorem flatMap_after_align [LawfulBEq α] (ignored : α → Bool) (fuel : Nat)
    (before after : List α) : (align ignored fuel before after).flatMap Part.after = after := by
  fun_induction align ignored fuel before after with
  | case1 before after => exact flatMap_after_change before after
  | case2 before after fuel i j start length none => exact flatMap_after_change before after
  | case3 before after fuel i j start length some left right =>
    rw [List.flatMap_append, List.flatMap_cons, left, right, Part.after, take_commonStart,
      ← List.drop_drop, List.take_append_drop, List.take_append_drop]

theorem proper_of_mem_align (ignored : α → Bool) (fuel : Nat) (before after : List α) :
    ∀ part ∈ align ignored fuel before after, part.Proper := by
  fun_induction align ignored fuel before after with
  | case1 => exact fun part => proper_of_mem_change
  | case2 => exact fun part => proper_of_mem_change
  | case3 before after fuel i j start length some left right =>
    refine List.forall_mem_append.2 ⟨left, List.forall_mem_cons.2 ⟨Or.inl fun none => ?_, right⟩⟩
    have few : length ≤ (before.drop i).length := commonStart_le _ _
    have empty := congrArg List.length (show (before.drop i).take length = [] from none)
    rw [List.length_take, List.length_nil] at empty
    omega

theorem isChain_align (ignored : α → Bool) (fuel : Nat) (before after : List α) :
    (align ignored fuel before after).IsChain Part.Apart := by
  fun_induction align ignored fuel before after with
  | case1 before after => exact isChain_change before after
  | case2 before after => exact isChain_change before after
  | case3 before after fuel i j start length some left right =>
    refine List.isChain_append.2 ⟨left, List.isChain_cons.2 ⟨fun _ _ => Or.inl rfl, right⟩, ?_⟩
    intro last _ first isFirst
    obtain rfl := Option.some.inj isFirst
    exact Or.inr rfl

end sides

/-! ## Runs of a list and itself -/

/-- How many items at the end of a list are not ignored. -/
def ownRun (ignored : α → Bool) (items : List α) : Nat :=
  (items.reverse.takeWhile fun item => !ignored item).length

theorem ownRun_take_succ (ignored : α → Bool) {items : List α} {k : Nat} {item : α}
    (at_k : items[k]? = some item) :
    ownRun ignored (items.take (k + 1)) =
      if ignored item then 0 else ownRun ignored (items.take k) + 1 := by
  rw [List.take_add_one, at_k]
  cases skipped : ignored item <;> simp [ownRun, skipped]

/-- Lengths of the runs of a list and itself that end in front of a place of the one and, first to last,
in front of every place of the other: none is longer than what is not ignored in front of either place,
and the one of the same place is that long. -/
structure OwnLengths (ignored : α → Bool) (items : List α) (place : Nat) (lengths : List Nat) :
    Prop where
  le : ∀ (j n : Nat), lengths[j]? = some n →
    n ≤ ownRun ignored (items.take place) ∧ n ≤ ownRun ignored (items.take j)
  here : lengths[place]? = some (ownRun ignored (items.take place))

theorem ownLengths_zeros {ignored : α → Bool} {items : List α} {place : Nat}
    (none : ownRun ignored (items.take place) = 0) (le : place ≤ items.length) :
    OwnLengths ignored items place (0 :: items.map fun _ => 0) := by
  have zeros : (0 :: items.map fun _ => 0) = List.replicate (items.length + 1) 0 := by
    simp [List.replicate_succ]
  rw [zeros]
  constructor
  · intro j n at_j
    obtain ⟨-, rfl⟩ := List.getElem?_eq_some_iff.1 at_j
    simp
  · rw [none, List.getElem?_replicate, if_pos (Nat.lt_succ_of_le le)]

/-- The better one of the best run so far and runs that end at a position and, first to last, behind
`other` and the places after it. -/
def bestFrom (position other : Nat) (best : Run) : List Nat → Run
  | [] => best
  | n :: lengths =>
    bestFrom position (other + 1)
      (if best.length < n then ⟨position + 1 - n, other + 1 - n, n⟩ else best) lengths

theorem bestOf_eq_bestFrom (best : Run) (position : Nat) (lengths : List Nat) :
    bestOf best position lengths = bestFrom position 0 best lengths := by
  unfold bestOf
  generalize 0 = other
  induction lengths generalizing best other with
  | nil => rfl
  | cons n lengths ih => rw [List.foldl_cons, ih, bestFrom]

/-- The best run stays while no run is longer. -/
theorem bestFrom_append {front : List Nat} {best : Run} (le : ∀ n ∈ front, n ≤ best.length)
    (position other : Nat) (back : List Nat) :
    bestFrom position other best (front ++ back) =
      bestFrom position (other + front.length) best back := by
  induction front generalizing other with
  | nil => rfl
  | cons n front ih =>
    rw [List.forall_mem_cons] at le
    rw [List.cons_append, bestFrom, if_neg (Nat.not_lt.2 le.1), ih le.2, List.length_cons,
      Nat.add_right_comm, Nat.add_assoc]

/-- A run that starts at the same place in both lists, and not behind a bound. -/
def Run.Level (bound : Nat) (run : Run) : Prop := run.before = run.after ∧ run.before ≤ bound

/-- Of the runs that end at an item of a list, the best one is the run of the list and itself. -/
theorem OwnLengths.bestOf {ignored : α → Bool} {items : List α} {place : Nat} {best : Run}
    {lengths : List Nat} (own : OwnLengths ignored items (place + 1) (0 :: lengths))
    (inside : place < items.length) (level : best.Level items.length)
    (reached : ∀ k ≤ place, ownRun ignored (items.take k) ≤ best.length) :
    (bestOf best place lengths).Level items.length ∧
      ∀ k ≤ place + 1, ownRun ignored (items.take k) ≤ (bestOf best place lengths).length := by
  have here : lengths[place]? = some (ownRun ignored (items.take (place + 1))) := own.here
  obtain ⟨present, here⟩ := List.getElem?_eq_some_iff.1 here
  have split : lengths = lengths.take place ++ lengths[place] :: lengths.drop (place + 1) := by
    rw [List.getElem_cons_drop, List.take_append_drop]
  have front : ∀ n ∈ lengths.take place, n ≤ best.length := by
    intro n mem
    obtain ⟨j, short, rfl⟩ := List.getElem_of_mem mem
    rw [List.length_take] at short
    rw [List.getElem_take]
    have le := (own.le (j + 1) lengths[j] (by simp)).2
    exact le.trans (reached (j + 1) (by omega))
  have back : ∀ n ∈ lengths.drop (place + 1), n ≤ ownRun ignored (items.take (place + 1)) := by
    intro n mem
    obtain ⟨j, at_j⟩ := List.mem_iff_getElem?.1 (List.mem_of_mem_drop mem)
    exact (own.le (j + 1) n at_j).1
  rw [bestOf_eq_bestFrom, split, bestFrom_append front, List.length_take,
    Nat.min_eq_left present.le, Nat.zero_add, here, bestFrom,
    ← List.append_nil (lengths.drop _)]
  split
  next better =>
    rw [bestFrom_append back, bestFrom]
    refine ⟨⟨rfl, (Nat.sub_le _ _).trans inside⟩, fun k le => ?_⟩
    obtain rfl | le := Nat.eq_or_lt_of_le le
    · exact le_rfl
    · exact (reached k (Nat.le_of_lt_succ le)).trans better.le
  next worse =>
    have le := Nat.not_lt.1 worse
    rw [bestFrom_append fun n mem => (back n mem).trans le, bestFrom]
    refine ⟨level, fun k le' => ?_⟩
    obtain rfl | le' := Nat.eq_or_lt_of_le le'
    · exact le
    · exact reached k (Nat.le_of_lt_succ le')

/-! ## A list aligned with itself -/

section self

variable [BEq α]

theorem OwnLengths.next [LawfulBEq α] {ignored : α → Bool} {items : List α} {place : Nat}
    {lengths : List Nat} {item : α} (own : OwnLengths ignored items place (0 :: lengths))
    (at_place : items[place]? = some item) :
    OwnLengths ignored items (place + 1) (0 :: runLengths ignored item lengths items) := by
  have here := ownRun_take_succ ignored at_place
  unfold runLengths
  split
  next skipped =>
    rw [if_pos skipped] at here
    exact ownLengths_zeros here (List.getElem?_eq_some_iff.1 at_place).1
  next kept =>
    rw [if_neg kept] at here
    constructor
    · intro j n at_j
      cases j with
      | zero =>
        obtain rfl := Option.some.inj at_j
        exact ⟨Nat.zero_le _, Nat.zero_le _⟩
      | succ j =>
        rw [List.getElem?_cons_succ, List.getElem?_zipWith_eq_some] at at_j
        obtain ⟨m, other, before, at_j, rfl⟩ := at_j
        split
        next same =>
          obtain ⟨le_here, le_there⟩ := own.le j m before
          rw [here, ownRun_take_succ ignored at_j, eq_of_beq same, if_neg kept]
          exact ⟨Nat.succ_le_succ le_here, Nat.succ_le_succ le_there⟩
        next => exact ⟨Nat.zero_le _, Nat.zero_le _⟩
    · rw [here, List.getElem?_cons_succ, List.getElem?_zipWith_eq_some]
      exact ⟨_, item, own.here, at_place, by rw [if_pos (beq_self_eq_true item)]⟩

/-- The longest run from a position on. -/
def longestFrom (ignored : α → Bool) (after : List α) (position : Nat) (best : Run)
    (lengths : List Nat) : List α → Run
  | [] => best
  | item :: rest =>
    longestFrom ignored after (position + 1)
      (bestOf best position (runLengths ignored item lengths after))
      (runLengths ignored item lengths after) rest

theorem longestRun_eq_longestFrom (ignored : α → Bool) (before after : List α) :
    longestRun ignored before after =
      longestFrom ignored after 0 ⟨0, 0, 0⟩ (after.map fun _ => 0) before := by
  unfold longestRun
  generalize after.map (fun _ => 0) = lengths
  generalize (⟨0, 0, 0⟩ : Run) = best
  generalize 0 = position
  induction before generalizing best position lengths with
  | nil => rfl
  | cons item before ih => rw [List.foldl_cons, ih, longestFrom]

theorem level_longestFrom [LawfulBEq α] {ignored : α → Bool} {items front rest : List α}
    (split : items = front ++ rest) {best : Run} {lengths : List Nat}
    (own : OwnLengths ignored items front.length (0 :: lengths)) (level : best.Level items.length)
    (reached : ∀ k ≤ front.length, ownRun ignored (items.take k) ≤ best.length) :
    (longestFrom ignored items front.length best lengths rest).Level items.length := by
  induction rest generalizing front best lengths with
  | nil => exact level
  | cons item rest ih =>
    have inside : front.length < items.length := by simp [split]
    have at_place : items[front.length]? = some item := by simp [split]
    have next := own.next at_place
    obtain ⟨level', reached'⟩ := next.bestOf inside level reached
    have moved : (front ++ [item]).length = front.length + 1 := List.length_append
    rw [longestFrom, ← moved]
    rw [← moved] at next reached'
    exact ih (by simp [split]) next level' reached'

/-- The longest run that a list has in common with itself starts at the same place in both. -/
theorem level_longestRun_self [LawfulBEq α] (ignored : α → Bool) (items : List α) :
    (longestRun ignored items items).Level items.length := by
  rw [longestRun_eq_longestFrom]
  have start : OwnLengths ignored items 0 (0 :: items.map fun _ => 0) :=
    ownLengths_zeros rfl (Nat.zero_le _)
  refine level_longestFrom (List.nil_append items).symm start ⟨rfl, Nat.zero_le _⟩ ?_
  intro k le
  rw [Nat.le_zero.1 le, List.take_zero]
  rfl

theorem commonStart_self [ReflBEq α] (items : List α) :
    commonStart items items = items.length := by
  induction items with
  | nil => rfl
  | cons item items ih => rw [commonStart, if_pos BEq.rfl, ih, List.length_cons]

theorem runStart_self [LawfulBEq α] (ignored : α → Bool) (items : List α) :
    runStart ignored items items = (0, 0) := by
  obtain ⟨same, inside⟩ := level_longestRun_self ignored items
  have start : (longestRun ignored items items).before -
      commonStart (items.take (longestRun ignored items items).before).reverse
        (items.take (longestRun ignored items items).before).reverse = 0 := by
    rw [commonStart_self, List.length_reverse, List.length_take, Nat.min_eq_left inside,
      Nat.sub_self]
  rw [runStart, ← same, start]

theorem align_nil (ignored : α → Bool) (fuel : Nat) : align ignored fuel ([] : List α) [] = [] := by
  cases fuel with
  | zero => rfl
  | succ fuel => simp [align, commonStart, change]

/-- A list is aligned with itself without any change. -/
theorem isChange_of_mem_alignment_self [LawfulBEq α] {items : List α} :
    ∀ part ∈ alignment items items, part.isChange = false := by
  rw [alignment, align, runStart_self]
  simp only [List.drop_zero, List.take_zero, Nat.zero_add, commonStart_self, List.drop_length,
    align_nil, List.nil_append]
  split
  next none =>
    rw [List.length_eq_zero_iff.1 none]
    exact List.forall_mem_nil _
  next => exact List.forall_mem_singleton.2 rfl

/-- The lists are the same if nothing is changed, and only then. -/
theorem forall_isChange_alignment_iff [LawfulBEq α] {before after : List α} :
    (∀ part ∈ alignment before after, part.isChange = false) ↔ before = after := by
  constructor
  · intro kept
    calc
      before = (alignment before after).flatMap Part.before :=
        (flatMap_before_align _ _ _ _).symm
      _ = (alignment before after).flatMap Part.after := flatMap_before_eq_after kept
      _ = after := flatMap_after_align _ _ _ _
  · rintro rfl
    exact isChange_of_mem_alignment_self

end self

end Diff
end StoryMigration
