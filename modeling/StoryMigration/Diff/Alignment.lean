/-!
# Alignment of two lists

Which items of a list are kept in another one. The longest run of items that both have in common is
kept, the earliest of several; what stands before it in both lists is aligned by itself, and so is what
stands behind it. Items that are popular in a long list start no run, but extend one. An alignment has
the two lists as its two sides.
-/

namespace StoryMigration
namespace Diff

variable {α : Type} [BEq α]

/-- A part of an alignment. -/
inductive Part (α : Type) where
  /-- Items of both lists. -/
  | kept (items : List α)
  /-- Items of the one list, and those of the other list that stand in their place. -/
  | changed (before after : List α)
  deriving Repr

namespace Part

/-- The items of the one list. -/
def before : Part α → List α
  | kept items => items
  | changed before _ => before

/-- The items of the other list. -/
def after : Part α → List α
  | kept items => items
  | changed _ after => after

end Part

/-- Number of items from which on a list has popular ones. -/
def longFrom : Nat := 200

/-- An item is popular in a long list if more than one in a hundred items is the same. -/
def isPopular (items : List α) (item : α) : Bool :=
  decide (longFrom ≤ items.length) && decide (items.length / 100 + 1 < items.count item)

/-- Where a run starts, and its length. -/
structure Run where
  before : Nat
  after : Nat
  length : Nat
  deriving Repr

/-- Lengths of the runs that end at an item of the one list and at every item of the other list, from
those of the item before. -/
def runLengths (ignored : α → Bool) (item : α) (previous : List Nat) (others : List α) : List Nat :=
  if ignored item then others.map fun _ => 0
  else (0 :: previous).zipWith (fun n other => if other == item then n + 1 else 0) others

/-- The better one of the best run so far and the runs that end at an item. -/
def bestOf (best : Run) (position : Nat) (lengths : List Nat) : Run :=
  (lengths.foldl
    (fun (best, other) n =>
      (if best.length < n then ⟨position + 1 - n, other + 1 - n, n⟩ else best, other + 1))
    (best, 0)).1

/-- The longest run that starts without ignored items. -/
def longestRun (ignored : α → Bool) (before after : List α) : Run :=
  (before.foldl
    (fun (best, position, lengths) item =>
      let lengths := runLengths ignored item lengths after
      (bestOf best position lengths, position + 1, lengths))
    ((⟨0, 0, 0⟩ : Run), 0, after.map fun _ => 0)).1

/-- Number of items that two lists begin with alike. -/
def commonStart : List α → List α → Nat
  | a :: as, b :: bs => if a == b then commonStart as bs + 1 else 0
  | _, _ => 0

/-- Where the longest run starts, with what is alike before it. -/
def runStart (ignored : α → Bool) (before after : List α) : Nat × Nat :=
  let run := longestRun ignored before after
  let more := commonStart (before.take run.before).reverse (after.take run.after).reverse
  (run.before - more, run.after - more)

/-- What stands in place of what, unless both are nothing. -/
def change (before after : List α) : List (Part α) :=
  if before.isEmpty && after.isEmpty then [] else [.changed before after]

/-- The alignment of two lists; `fuel` bounds how many runs are kept. -/
def align (ignored : α → Bool) (fuel : Nat) (before after : List α) : List (Part α) :=
  match fuel with
  | 0 => change before after
  | fuel + 1 =>
    let (i, j) := runStart ignored before after
    let length := commonStart (before.drop i) (after.drop j)
    if length = 0 then change before after
    else
      align ignored fuel (before.take i) (after.take j)
        ++ .kept ((before.drop i).take length)
          :: align ignored fuel (before.drop (i + length)) (after.drop (j + length))

/-- The alignment of two lists. -/
def alignment (before after : List α) : List (Part α) :=
  align (isPopular after) (before.length + 1) before after

end Diff
end StoryMigration
