import StoryMigration.Proofs.LaidStatement
import StoryMigration.Proofs.SnippetCharacters
import StoryMigration.Proofs.ValueReading

/-!
# Where copied texts end

A reading stops behind a token or a comment and never in a line ending.  So a
text that is read up to its end does not end with a carriage return that could
belong to what is written behind it, and snippets that fit can be written in
the style of a module one by one.
-/

namespace StoryMigration

open Syntax Reading

namespace Manner

/-- Whatever a copied text is read as is laid over it. -/
theorem laysSome
    {front before : List Char}
    (dialect : Dialect)
    (text : List Char)
    (manner : Manner) :
    LaysSome front before (manner.reading dialect text) := by
  have regular (level : Nat) (goal : Goal) :
      Regular ((within dialect text level).read goal) :=
    Regular.toDepth dialect _ goal
  have goals (level : Nat) (goal : Goal) :
      LaysSome front before ((within dialect text level).read goal) :=
    .toDepth dialect _ goal
  cases manner with
  | value level place => exact goals level _
  | item level =>
    have := regular level
    exact .item (goals level)
  | member level =>
    have := regular level
    exact .orElse (LaysSome.spread (goals level))
      (.orElse (LaysSome.pair (goals level))
        (.orElse (LaysSome.method (goals level) _ _) (LaysSome.shorthand _)))

end Manner

theorem byteLength_replicate (count : Nat) :
    byteLength (List.replicate count 'a') = count := by
  induction count with
  | zero => rfl
  | succ count countHypothesis =>
    rw [List.replicate_succ', byteLength_append, countHypothesis]
    rfl

/-- What a reading takes of a text does not end with a carriage return. -/
theorem getLast?_ne_of_read
    {reading : Reading Node}
    {text taken after : List Char}
    (lays : ∀ front before, LaysSome front before reading)
    (read : (reading (Cursor.standing text (taken ++ after))).map (·.2.rest) =
      some after) :
    taken.getLast? ≠ some '\r' := by
  obtain ⟨⟨node, next⟩, readNode, restEq⟩ := Option.map_eq_some_iff.1 read
  -- only the number of bytes in front of the cursor is known; any text of that
  -- length will do
  generalize frontEq : List.replicate
    (byteLength text - byteLength (taken ++ after)) 'a' = front
  have size : byteLength front =
      byteLength text - byteLength (taken ++ after) := by
    rw [← frontEq, byteLength_replicate]
  have noReturn : front.getLast? ≠ some '\r' := by
    rw [← frontEq]
    intro isLast
    have isFiller := List.eq_of_mem_replicate (List.mem_of_getLast? isLast)
    exact absurd isFiller (by decide)
  have laid : Laid (front ++ (taken ++ after)) front false ([] ++ [])
      (Cursor.standing text (taken ++ after)) := by
    refine ⟨[], ⟨?_, ?_, by simp, .nil, by simp, ?_, .nil, by simp⟩,
      .of_getLast? ?_, by simp⟩
    · rw [List.append_nil]
      rfl
    · rw [List.append_nil, size]
      rfl
    · intro note member
      contradiction
    · rwa [List.append_nil]
  obtain ⟨within, trail, -, closed⟩ := (lays _ _).keeps laid readNode
  have stands := trail.stands
  rw [restEq, List.append_assoc, List.append_cancel_left_eq,
    List.append_cancel_right_eq] at stands
  rw [stands]
  exact (closed rfl).getLast?_ne

namespace Newline

/-- A text ends with a carriage return in the style of a module if it does. -/
theorem getLast?_spreadList
    (newline : Newline)
    {chars : List Char}
    (isLast : chars.getLast? = some '\r') :
    (newline.spreadList chars).getLast? = some '\r' := by
  rw [← getLast?_joined] at isLast
  obtain ⟨front, joinedEq⟩ := List.getLast?_eq_some_iff.1 isLast
  unfold spreadList
  rw [joinedEq, List.flatMap_append]
  exact List.getLast?_concat

end Newline

namespace Snippet

variable {newline : Newline} {dialect : Dialect} {text after : List Char}

/-- A copied text that fits does not end with a carriage return. -/
theorem Fits.getLast?_ne
    {snippet : Snippet}
    (fits : snippet.Fits newline dialect text after)
    (isCopied : snippet.manner.isSome = true) :
    snippet.text.getLast? ≠ some '\r' := by
  obtain ⟨manner, mannerEq⟩ := Option.isSome_iff_exists.1 isCopied
  unfold Fits at fits
  rw [mannerEq] at fits
  simp only at fits
  rw [← List.append_assoc] at fits
  intro isLast
  have writtenEq : snippet.written newline = newline.spreadList snippet.text := by
    unfold written
    rw [mannerEq]
    rfl
  have lastWritten := newline.getLast?_spreadList isLast
  refine getLast?_ne_of_read (fun _ _ => manner.laysSome dialect text) fits ?_
  rw [writtenEq, List.getLast?_append, lastWritten, Option.some_or]

/-- Clear snippets that fit are sound. -/
theorem isSound_of_allFit
    {snippets : List Snippet}
    (clear : AllClear snippets)
    (fits : AllFit newline dialect text snippets after) :
    ∀ snippet ∈ snippets, snippet.IsSound := by
  induction snippets with
  | nil => exact fun _ member => absurd member List.not_mem_nil
  | cons first more moreHypothesis =>
    intro snippet member
    rcases List.mem_cons.1 member with rfl | later
    · exact (clear _ List.mem_cons_self).isSound fits.1.getLast?_ne
    · exact moreHypothesis (fun other isOther =>
        clear other (List.mem_cons_of_mem _ isOther)) fits.2 snippet later

/-- Clear snippets that fit are laid as their text is written in the style of a
module. -/
theorem spreadList_flat_of_allFit
    {snippets : List Snippet}
    (clear : AllClear snippets)
    (fits : AllFit newline dialect text snippets after) :
    newline.spreadList (flat snippets) = lay newline snippets [] := by
  have spreadEq := spreadList_flat newline (isSound_of_allFit clear fits) []
  rw [List.append_nil] at spreadEq
  exact spreadEq

theorem lay_eq_append
    (newline : Newline)
    (snippets : List Snippet)
    (after : List Char) :
    lay newline snippets after = lay newline snippets [] ++ after := by
  induction snippets with
  | nil => rfl
  | cons snippet more moreHypothesis =>
    rw [lay, lay, moreHypothesis]
    simp only [List.append_assoc]

end Snippet

end StoryMigration
