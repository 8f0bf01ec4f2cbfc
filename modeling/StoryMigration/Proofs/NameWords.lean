import Mathlib.Data.List.Basic
import StoryMigration.Story.Name

/-!
# The words of a name

A name is cut into words in three steps: into runs of letters and numbers, each
run into numbers and runs of letters, and each run of letters at its capitals.
No step loses a character of a word or makes an empty word, so the words of a
name, one behind the other, are all its letters and numbers.  What stands
between two words only separates them.
-/

namespace StoryMigration
namespace StoryName

/-! ## Runs -/

section Runs

variable {α : Type} {test : α → Bool}

theorem flatten_pushRun
    (run : List α)
    (others : List (List α)) :
    (pushRun run others).flatten = run ++ others.flatten := by
  cases run with
  | nil => rfl
  | cons a run => rfl

theorem pushRun_append
    (run : List α)
    (front back : List (List α)) :
    pushRun run (front ++ back) = pushRun run front ++ back := by
  cases run with
  | nil => rfl
  | cons a run => rfl

/-- The runs hold all items with the property, in their order. -/
theorem flatten_runs
    (items : List α) :
    (runs test items).flatten = items.filter test := by
  have both : (runsFrom test items).1 ++ (runsFrom test items).2.flatten =
      items.filter test := by
    induction items with
    | nil => rfl
    | cons a items itemsHypothesis =>
      rw [runsFrom]
      by_cases holds : test a = true
      · rw [List.filter_cons_of_pos holds, ← itemsHypothesis]
        simp [holds]
      · rw [List.filter_cons_of_neg holds, ← itemsHypothesis]
        simp [holds, flatten_pushRun]
  rw [runs, flatten_pushRun, both]

/-- An item without the property ends a run. -/
theorem runs_append_cons
    {a : α}
    (breaks : test a = false)
    (front back : List α) :
    runs test (front ++ a :: back) = runs test front ++ runs test back := by
  have both : runsFrom test (front ++ a :: back) =
      ((runsFrom test front).1, (runsFrom test front).2 ++ runs test back) := by
    induction front with
    | nil => simp [runsFrom, runs, breaks]
    | cons b front frontHypothesis =>
      rw [List.cons_append, runsFrom, runsFrom, frontHypothesis]
      by_cases holds : test b = true
      · simp [holds]
      · simp [holds, pushRun_append]
  rw [runs, both]
  exact pushRun_append _ _ _

/-- Items that all have the property are one run. -/
theorem runs_of_forall
    {items : List α}
    (notEmpty : items ≠ [])
    (hold : ∀ a ∈ items, test a = true) :
    runs test items = [items] := by
  have both : runsFrom test items = (items, []) := by
    clear notEmpty
    induction items with
    | nil => rfl
    | cons a items itemsHypothesis =>
      rw [List.forall_mem_cons] at hold
      rw [runsFrom, itemsHypothesis hold.2]
      simp [hold.1]
  obtain ⟨a, rest, rfl⟩ := List.exists_cons_of_ne_nil notEmpty
  rw [runs, both]
  rfl

end Runs

/-! ## Pieces of a run -/

/-- An ordinal's ending is how the text starts. -/
theorem eq_append_of_ordinalEnding?
    {text ending : List Char}
    (found : ordinalEnding? text = some ending) :
    ∃ rest, text = ending ++ rest := by
  unfold ordinalEnding? at found
  split at found
  · split at found
    · split at found
      · cases found
        exact ⟨[], rfl⟩
      · split at found
        · cases found
          exact ⟨_, rfl⟩
        · contradiction
    · contradiction
  · contradiction

/-- The piece that a text starts with: a number, with an ordinal's ending if
there is one, or everything up to the next number. -/
def frontPiece (text : List Char) : List Char :=
  if (text.head?.map isDecimal).getD false then
    text.takeWhile isDecimal ++
      (ordinalEnding? (text.dropWhile isDecimal)).getD []
  else text.takeWhile (!isDecimal ·)

theorem frontPiece_number
    {text : List Char}
    {c : Char}
    (starts : text.head? = some c)
    (isNumber : isDecimal c = true) :
    frontPiece text = text.takeWhile isDecimal ++
      (ordinalEnding? (text.dropWhile isDecimal)).getD [] := by
  rw [frontPiece, starts]
  exact if_pos isNumber

theorem frontPiece_letters
    {text : List Char}
    {c : Char}
    (starts : text.head? = some c)
    (noNumber : isDecimal c = false) :
    frontPiece text = text.takeWhile (!isDecimal ·) := by
  rw [frontPiece, starts]
  exact if_neg (Bool.not_eq_true _ ▸ noNumber)

theorem frontPiece_append_drop
    (text : List Char) :
    frontPiece text ++ text.drop (frontPiece text).length = text := by
  refine List.prefix_iff_eq_append.1 ?_
  unfold frontPiece
  split
  · rcases found : ordinalEnding? (text.dropWhile isDecimal) with _ | ending
    · rw [Option.getD_none, List.append_nil]
      exact List.takeWhile_prefix _
    · obtain ⟨behind, behindEq⟩ := eq_append_of_ordinalEnding? found
      refine ⟨behind, ?_⟩
      rw [Option.getD_some, List.append_assoc, ← behindEq,
        List.takeWhile_append_dropWhile]
  · exact List.takeWhile_prefix _

theorem frontPiece_ne_nil
    (c : Char)
    (rest : List Char) :
    frontPiece (c :: rest) ≠ [] := by
  rcases isNumber : isDecimal c with _ | _
  · rw [frontPiece_letters rfl isNumber, List.takeWhile_cons_of_pos]
    · exact List.cons_ne_nil _ _
    · rw [isNumber]
      rfl
  · rw [frontPiece_number rfl isNumber, List.takeWhile_cons_of_pos isNumber]
    exact List.cons_ne_nil _ _

theorem piecesUpTo_cons
    (count : Nat)
    (c : Char)
    (rest : List Char) :
    piecesUpTo (count + 1) (c :: rest) =
      frontPiece (c :: rest) ::
        piecesUpTo count
          ((c :: rest).drop (frontPiece (c :: rest)).length) := by
  have whole (front back : List Char) (same : front ++ back = c :: rest)
      (more : Nat) :
      (c :: rest).drop (front.length + more) = back.drop more := by
    rw [← same, ← List.drop_drop, List.drop_left]
  have behind (test : Char → Bool) :=
    whole _ _ (List.takeWhile_append_dropWhile (p := test) (l := c :: rest))
  rw [piecesUpTo]
  dsimp only
  rcases isNumber : isDecimal c with _ | _
  · rw [if_neg Bool.false_ne_true, frontPiece_letters rfl isNumber]
    have dropped := behind (!isDecimal ·) 0
    rw [Nat.add_zero, List.drop_zero] at dropped
    rw [dropped]
  · rw [if_pos rfl, frontPiece_number rfl isNumber, List.length_append, behind]
    split
    · rename_i ending found
      rw [found]
      rfl
    · rename_i notFound
      rw [notFound, Option.getD_none, List.append_nil, List.length_nil,
        List.drop_zero]

theorem length_drop_frontPiece
    (c : Char)
    (rest : List Char) :
    ((c :: rest).drop (frontPiece (c :: rest)).length).length ≤ rest.length := by
  have positive := List.length_pos_iff.2 (frontPiece_ne_nil c rest)
  rw [List.length_drop, List.length_cons]
  omega

/-- More pieces than characters are never needed. -/
theorem piecesUpTo_eq
    {first second : Nat}
    {text : List Char}
    (firstEnough : text.length ≤ first)
    (secondEnough : text.length ≤ second) :
    piecesUpTo first text = piecesUpTo second text := by
  induction first generalizing second text with
  | zero =>
    rw [List.eq_nil_of_length_eq_zero (Nat.le_zero.1 firstEnough)]
    cases second with
    | zero => rfl
    | succ second => rfl
  | succ first firstHypothesis =>
    cases text with
    | nil =>
      cases second with
      | zero => rfl
      | succ second => rfl
    | cons c rest =>
      cases second with
      | zero => exact absurd secondEnough (Nat.not_succ_le_zero _)
      | succ second =>
        have shorter := length_drop_frontPiece c rest
        rw [piecesUpTo_cons, piecesUpTo_cons, firstHypothesis
          (Nat.le_trans shorter (Nat.le_of_succ_le_succ firstEnough))
          (Nat.le_trans shorter (Nat.le_of_succ_le_succ secondEnough))]

@[simp] theorem pieces_nil : pieces [] = [] := rfl

/-- The pieces of a text are the one that it starts with and those behind. -/
theorem pieces_cons
    (c : Char)
    (rest : List Char) :
    pieces (c :: rest) =
      frontPiece (c :: rest) ::
        pieces ((c :: rest).drop (frontPiece (c :: rest)).length) := by
  rw [pieces, List.length_cons, piecesUpTo_cons, pieces,
    piecesUpTo_eq (length_drop_frontPiece c rest) (Nat.le_refl _)]

/-- A text that starts with a piece has this piece and those behind it. -/
theorem pieces_append
    {front behind : List Char}
    (notEmpty : front ≠ [])
    (isFront : frontPiece (front ++ behind) = front) :
    pieces (front ++ behind) = front :: pieces behind := by
  obtain ⟨c, rest, rfl⟩ := List.exists_cons_of_ne_nil notEmpty
  rw [List.cons_append] at isFront ⊢
  rw [pieces_cons, isFront, ← List.cons_append, List.drop_left]

/-- A property of the pieces of a text, shown for the first piece and what is
behind it. -/
theorem pieces_induction
    {holds : List Char → Prop}
    (nil : holds [])
    (cons : ∀ c rest,
      holds ((c :: rest).drop (frontPiece (c :: rest)).length) →
        holds (c :: rest))
    (text : List Char) :
    holds text := by
  induction length : text.length using Nat.strongRecOn generalizing text with
  | ind size sizeHypothesis =>
    cases text with
    | nil => exact nil
    | cons c rest =>
      refine cons c rest (sizeHypothesis _ ?_ _ rfl)
      rw [← length, List.length_cons]
      exact Nat.lt_succ_of_le (length_drop_frontPiece c rest)

/-- The pieces of a text are the text. -/
theorem flatten_pieces
    (text : List Char) :
    (pieces text).flatten = text := by
  induction text using pieces_induction with
  | nil => rfl
  | cons c rest behindHypothesis =>
    rw [pieces_cons, List.flatten_cons, behindHypothesis,
      frontPiece_append_drop]

theorem ne_nil_of_mem_pieces
    {text piece : List Char}
    (isPiece : piece ∈ pieces text) :
    piece ≠ [] := by
  induction text using pieces_induction with
  | nil => exact absurd isPiece List.not_mem_nil
  | cons c rest behindHypothesis =>
    rw [pieces_cons] at isPiece
    rcases List.mem_cons.1 isPiece with rfl | later
    · exact frontPiece_ne_nil c rest
    · exact behindHypothesis later

/-! ## Words of a piece -/

theorem flatten_wordsBehind
    (previous : Char)
    (text : List Char) :
    (wordsBehind previous text).1 ++ (wordsBehind previous text).2.flatten =
      text := by
  induction text generalizing previous with
  | nil => rfl
  | cons c rest restHypothesis =>
    have behind := restHypothesis c
    rw [wordsBehind]
    split
    rename_i front more wordsEq
    rw [wordsEq] at behind
    split
    · simp [← behind]
    · simp [← behind]

theorem ne_nil_of_mem_wordsBehind
    {previous : Char}
    {text word : List Char}
    (isWord : word ∈ (wordsBehind previous text).2) :
    word ≠ [] := by
  induction text generalizing previous with
  | nil => exact absurd isWord List.not_mem_nil
  | cons c rest restHypothesis =>
    rw [wordsBehind] at isWord
    split at isWord
    rename_i front more wordsEq
    have later (isLater : word ∈ more) : word ≠ [] := by
      refine @restHypothesis c ?_
      rw [wordsEq]
      exact isLater
    split at isWord
    · rcases List.mem_cons.1 isWord with rfl | isLater
      · exact List.cons_ne_nil c front
      · exact later isLater
    · exact later isWord

/-- The words of a piece are the piece. -/
theorem flatten_pieceWords
    (piece : List Char) :
    (pieceWords piece).flatten = piece := by
  unfold pieceWords
  split
  · exact List.flatten_singleton
  · cases piece with
    | nil => rfl
    | cons c rest =>
      have behind := flatten_wordsBehind c rest
      rw [splitCase]
      split
      rename_i front more wordsEq
      rw [wordsEq] at behind
      rw [List.flatten_cons, List.cons_append, behind]

theorem ne_nil_of_mem_pieceWords
    {piece word : List Char}
    (notEmpty : piece ≠ [])
    (isWord : word ∈ pieceWords piece) :
    word ≠ [] := by
  unfold pieceWords at isWord
  split at isWord
  · rw [List.mem_singleton.1 isWord]
    exact notEmpty
  · cases piece with
    | nil => exact absurd isWord List.not_mem_nil
    | cons c rest =>
      rw [splitCase] at isWord
      split at isWord
      rename_i front more wordsEq
      rcases List.mem_cons.1 isWord with rfl | later
      · exact List.cons_ne_nil c front
      · refine @ne_nil_of_mem_wordsBehind c rest _ ?_
        rw [wordsEq]
        exact later

/-! ## Words of a name -/

/-- The words of a run of letters and numbers. -/
def runWords (run : List Char) : List (List Char) :=
  (pieces run).flatMap pieceWords

@[simp] theorem runWords_nil : runWords [] = [] := rfl

theorem flatten_runWords
    (run : List Char) :
    (runWords run).flatten = run := by
  unfold runWords
  have each : ((pieces run).flatMap pieceWords).flatten =
      (pieces run).flatten := by
    induction pieces run with
    | nil => rfl
    | cons piece others othersHypothesis =>
      rw [List.flatMap_cons, List.flatten_append, flatten_pieceWords,
        othersHypothesis, List.flatten_cons]
  rw [each, flatten_pieces]

theorem ne_nil_of_mem_runWords
    {run word : List Char}
    (isWord : word ∈ runWords run) :
    word ≠ [] := by
  obtain ⟨piece, isPiece, inPiece⟩ := List.mem_flatMap.1 isWord
  exact ne_nil_of_mem_pieceWords (ne_nil_of_mem_pieces isPiece) inPiece

theorem splitWords_eq_flatMap
    (text : List Char) :
    splitWords text = (runs isWordChar text).flatMap runWords := rfl

/-- The words of a name are its letters and numbers. -/
theorem flatten_splitWords_eq
    (text : List Char) :
    (splitWords text).flatten = text.filter isWordChar := by
  rw [splitWords_eq_flatMap, ← flatten_runs]
  induction runs isWordChar text with
  | nil => rfl
  | cons run others othersHypothesis =>
    rw [List.flatMap_cons, List.flatten_append, flatten_runWords,
      othersHypothesis, List.flatten_cons]

theorem ne_nil_of_mem_splitWords
    {text word : List Char}
    (isWord : word ∈ splitWords text) :
    word ≠ [] := by
  obtain ⟨run, -, inRun⟩ := List.mem_flatMap.1 isWord
  exact ne_nil_of_mem_runWords inRun

/-- A character stands in a word exactly if it is a letter or number of the
text. -/
theorem exists_mem_splitWords_iff
    {text : List Char}
    {c : Char} :
    (∃ word ∈ splitWords text, c ∈ word) ↔
      c ∈ text ∧ isWordChar c = true := by
  rw [← List.mem_flatten, flatten_splitWords_eq, List.mem_filter]

/-- What is no letter or number separates words. -/
theorem splitWords_append_cons
    {c : Char}
    (breaks : isWordChar c = false)
    (front back : List Char) :
    splitWords (front ++ c :: back) = splitWords front ++ splitWords back := by
  rw [splitWords_eq_flatMap, runs_append_cons breaks, List.flatMap_append]
  rfl

/-- A text of letters and numbers has the words of its only run. -/
theorem splitWords_of_forall
    {run : List Char}
    (isWord : ∀ c ∈ run, isWordChar c = true) :
    splitWords run = runWords run := by
  cases run with
  | nil => rfl
  | cons c rest =>
    rw [splitWords_eq_flatMap, runs_of_forall (List.cons_ne_nil c rest) isWord,
      List.flatMap_singleton]

end StoryName
end StoryMigration
