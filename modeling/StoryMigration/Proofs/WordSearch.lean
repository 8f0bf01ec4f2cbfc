import StoryMigration.Proofs.GeneratedLiterals
import StoryMigration.Proofs.NameWords

/-!
# The search for words

The words of a name can also be found by searching: runs of letters and numbers
in the name, and in each run numbers, ordinals and runs of letters, where an
ordinal is a number and an ending that no letter follows.  What is searched for
may match in several ways, of which the first counts.  Searching a run leaves no
gap, so that no step of the cutting loses a character, takes one twice or moves
one: the words of a name are all its word characters but the underscores.
-/

namespace StoryMigration
namespace StoryName

/-! ## Searching -/

/-- What is searched for in a text. -/
inductive Target
  /-- One or more characters with a property, rather more than fewer. -/
  | many (test : Char → Bool)
  /-- One of some texts. -/
  | oneOf (texts : List (List Char))
  /-- Nothing, unless a character with a property is next. -/
  | notBefore (test : Char → Bool)
  /-- One thing and then another. -/
  | both (first second : Target)
  /-- One thing or else another. -/
  | either (first second : Target)

namespace Target

/-- The lengths of what is found at the front of a text, the preferred ones
first. -/
def lengths : Target → List Char → List Nat
  | many test, text =>
    ((List.range (text.takeWhile test).length).map (· + 1)).reverse
  | oneOf texts, text => (texts.filter (·.isPrefixOf text)).map List.length
  | notBefore test, text => if text.head?.any test then [] else [0]
  | both first second, text =>
    (first.lengths text).flatMap fun length =>
      (second.lengths (text.drop length)).map (length + ·)
  | either first second, text => first.lengths text ++ second.lengths text

/-- All that is found in a text, from left to right: where nothing is found, one
character further on, and otherwise behind what is found. -/
def findAll (target : Target) : List Char → List (List Char)
  | [] => []
  | c :: rest =>
    match (target.lengths (c :: rest)).head? with
    | some (more + 1) =>
      (c :: rest).take (more + 1) :: target.findAll (rest.drop more)
    | _ => target.findAll rest
termination_by text => text.length
decreasing_by
  · simp only [List.length_drop, List.length_cons]
    omega
  · exact Nat.lt_succ_self _

variable {target : Target} {test : Char → Bool} {c : Char} {rest : List Char}

theorem lengths_both
    (first second : Target)
    (text : List Char) :
    (both first second).lengths text =
      (first.lengths text).flatMap fun length =>
        (second.lengths (text.drop length)).map (length + ·) := rfl

theorem lengths_either
    (first second : Target)
    (text : List Char) :
    (either first second).lengths text =
      first.lengths text ++ second.lengths text := rfl

@[simp] theorem findAll_nil
    (target : Target) :
    target.findAll [] = [] := by
  rw [findAll]

/-- Where something is found, the search goes on behind it. -/
theorem findAll_append
    {found behind : List Char}
    (notEmpty : found ≠ [])
    (finds : (target.lengths (found ++ behind)).head? = some found.length) :
    target.findAll (found ++ behind) = found :: target.findAll behind := by
  obtain ⟨c, rest, rfl⟩ := List.exists_cons_of_ne_nil notEmpty
  rw [List.cons_append] at finds ⊢
  rw [findAll, finds, List.length_cons]
  simp only [List.take_succ_cons, List.take_left, List.drop_left]

/-- Where nothing is found, the search goes on behind the next character. -/
theorem findAll_cons_of_none
    (nothing : (target.lengths (c :: rest)).head? = none) :
    target.findAll (c :: rest) = target.findAll rest := by
  rw [findAll, nothing]

/-- Of a run all characters are preferred, and none of them is a last choice. -/
theorem lengths_many_of_pos
    {text : List Char}
    {more : Nat}
    (some : (text.takeWhile test).length = more + 1) :
    (many test).lengths text =
      (more + 1) :: ((List.range more).map (· + 1)).reverse := by
  rw [lengths, some, List.range_succ, List.map_append, List.reverse_append,
    List.map_singleton, List.reverse_singleton, List.singleton_append]

theorem lengths_many_of_neg
    (fails : test c = false) :
    (many test).lengths (c :: rest) = [] := by
  rw [lengths, List.takeWhile_cons_of_neg (by rw [fails]; exact Bool.false_ne_true)]
  rfl

theorem head?_lengths_many
    (holds : test c = true) :
    ((many test).lengths (c :: rest)).head? =
      some ((c :: rest).takeWhile test).length := by
  rw [lengths_many_of_pos
    (by rw [List.takeWhile_cons_of_pos holds, List.length_cons]),
    List.takeWhile_cons_of_pos holds, List.length_cons, List.head?_cons]

end Target

/-- A text that starts with a run has this run and those behind it. -/
theorem runs_cons
    {test : Char → Bool}
    {c : Char}
    (holds : test c = true)
    (rest : List Char) :
    runs test (c :: rest) = (c :: rest).takeWhile test ::
      runs test ((c :: rest).dropWhile test) := by
  have isRun : runs test ((c :: rest).takeWhile test) =
      [(c :: rest).takeWhile test] := by
    refine runs_of_forall ?_ fun d isHere => List.mem_takeWhile_imp isHere
    rw [List.takeWhile_cons_of_pos holds]
    exact List.cons_ne_nil _ _
  conv_lhs => rw [← List.takeWhile_append_dropWhile (p := test) (l := c :: rest)]
  cases behindEq : (c :: rest).dropWhile test with
  | nil => rw [List.append_nil, isRun]; rfl
  | cons d behind =>
    have breaks : test d = false := by
      have fails := List.head?_dropWhile_not test (c :: rest)
      rw [behindEq] at fails
      simpa using fails
    rw [runs_append_cons breaks, isRun]
    exact congrArg (_ :: ·) (runs_append_cons breaks [] behind).symm

/-- Searching for runs finds the longest ones. -/
theorem findAll_many
    (test : Char → Bool)
    (text : List Char) :
    (Target.many test).findAll text = runs test text := by
  induction length : text.length using Nat.strongRecOn generalizing text with
  | ind size sizeHypothesis =>
    subst length
    cases text with
    | nil => rw [Target.findAll_nil]; rfl
    | cons c rest =>
      rcases holds : test c with _ | _
      · rw [Target.findAll_cons_of_none
          (by rw [Target.lengths_many_of_neg holds, List.head?_nil]),
          sizeHypothesis _ (Nat.lt_succ_self _) rest rfl]
        exact (runs_append_cons holds [] rest).symm
      · have shorter : ((c :: rest).dropWhile test).length < (c :: rest).length := by
          rw [List.dropWhile_cons_of_pos holds]
          exact Nat.lt_succ_of_le (List.length_dropWhile_le test rest)
        have someFront : (c :: rest).takeWhile test ≠ [] := by
          rw [List.takeWhile_cons_of_pos holds]
          exact List.cons_ne_nil _ _
        have split := List.takeWhile_append_dropWhile (p := test) (l := c :: rest)
        calc (Target.many test).findAll (c :: rest)
          _ = (Target.many test).findAll
                ((c :: rest).takeWhile test ++ (c :: rest).dropWhile test) := by
              rw [split]
          _ = (c :: rest).takeWhile test ::
                (Target.many test).findAll ((c :: rest).dropWhile test) := by
              refine Target.findAll_append someFront ?_
              rw [split]
              exact Target.head?_lengths_many holds
          _ = runs test (c :: rest) := by
              rw [sizeHypothesis _ shorter _ rfl, runs_cons holds]

/-! ## Numbers, ordinals and letters -/

/-- The endings of ordinals. -/
def ordinalEndings : List (List Char) :=
  [['s', 't'], ['n', 'd'], ['r', 'd'], ['t', 'h']]

/-- Characters of words that are no decimal digits. -/
def isLetterLike (c : Char) : Bool := isWordChar c && !isDecimal c

/-- An ending of an ordinal, unless a letter follows. -/
def endingTarget : Target :=
  .both (.oneOf ordinalEndings) (.notBefore isLetterLike)

/-- A number with the ending of an ordinal, or else a number, or else letters. -/
def pieceTarget : Target :=
  .either (.both (.many isDecimal) endingTarget)
    (.either (.many isDecimal) (.many isLetterLike))

theorem ordinalEnding?_cons_cons
    (a b : Char)
    (rest : List Char) :
    ordinalEnding? (a :: b :: rest) =
      if [a, b] ∈ ordinalEndings ∧ (rest.head?.all isDecimal) = true then
        some [a, b]
      else none := by
  have contained : ["st", "nd", "rd", "th"].contains (String.ofList [a, b]) = true ↔
      [a, b] ∈ ordinalEndings := by
    have names : ["st", "nd", "rd", "th"] = ordinalEndings.map String.ofList := rfl
    rw [names, List.contains_iff_mem, List.mem_map]
    constructor
    · rintro ⟨ending, isEnding, same⟩
      rwa [← String.ofList_injective same]
    · exact fun isEnding => ⟨_, isEnding, rfl⟩
  unfold ordinalEnding?
  simp only [contained]
  by_cases isEnding : [a, b] ∈ ordinalEndings
  · cases rest with
    | nil => simp [isEnding]
    | cons c rest => simp [isEnding]
  · simp [isEnding]

/-- At most one of the endings stands at the front of a text. -/
theorem filter_ordinalEndings
    (a b : Char)
    (rest : List Char) :
    ordinalEndings.filter (·.isPrefixOf (a :: b :: rest)) =
      if [a, b] ∈ ordinalEndings then [[a, b]] else [] := by
  have twoEach : ∀ ending ∈ ordinalEndings,
      ending.isPrefixOf (a :: b :: rest) = (ending == [a, b]) := by
    simp [ordinalEndings, List.isPrefixOf]
  have apart : ordinalEndings.Nodup := by decide
  rw [List.filter_congr twoEach, List.filter_beq, apart.count]
  split <;> rfl

/-- In word characters an ordinal's ending is found where one is. -/
theorem lengths_endingTarget
    {text : List Char}
    (isWord : ∀ c ∈ text, isWordChar c = true) :
    endingTarget.lengths text = (ordinalEnding? text).toList.map List.length := by
  rcases text with _ | ⟨a, _ | ⟨b, rest⟩⟩
  · rfl
  · simp [endingTarget, Target.lengths, ordinalEndings, List.isPrefixOf,
      ordinalEnding?]
  · rw [ordinalEnding?_cons_cons, endingTarget]
    simp only [Target.lengths, filter_ordinalEndings]
    by_cases isEnding : [a, b] ∈ ordinalEndings
    · cases rest with
      | nil => simp [isEnding]
      | cons c rest =>
        have isNext : isWordChar c = true := isWord c (by simp)
        cases isNumber : isDecimal c <;>
          simp [isEnding, isLetterLike, isNext, isNumber]
    · simp [isEnding]

/-- In front of a decimal digit no ordinal's ending is found. -/
theorem lengths_endingTarget_of_decimal
    {c : Char}
    {rest : List Char}
    (isNumber : isDecimal c = true) :
    endingTarget.lengths (c :: rest) = [] := by
  have noEnding : ∀ ending ∈ ordinalEndings,
      ¬ ending.isPrefixOf (c :: rest) = true := by
    intro ending isEnding isFront
    obtain ⟨first, more, rfl, noNumber⟩ : ∃ first more,
        ending = first :: more ∧ isDecimal first = false := by
      simp only [ordinalEndings, List.mem_cons, List.not_mem_nil, or_false] at isEnding
      rcases isEnding with rfl | rfl | rfl | rfl <;> exact ⟨_, _, rfl, rfl⟩
    rw [List.isPrefixOf_cons_cons, Bool.and_eq_true, beq_iff_eq] at isFront
    rw [isFront.1, isNumber] at noNumber
    exact absurd noNumber (by simp)
  rw [endingTarget, Target.lengths, Target.lengths, List.filter_eq_nil_iff.2 noEnding]
  rfl

/-- Only behind all digits of a number an ordinal's ending is found. -/
theorem lengths_ordinal
    {text : List Char}
    {more : Nat}
    (digits : (text.takeWhile isDecimal).length = more + 1) :
    (Target.both (.many isDecimal) endingTarget).lengths text =
      (endingTarget.lengths (text.dropWhile isDecimal)).map (more + 1 + ·) := by
  have split := List.takeWhile_append_dropWhile (p := isDecimal) (l := text)
  have fewer : ∀ length ∈ ((List.range more).map (· + 1)).reverse,
      (endingTarget.lengths (text.drop length)).map (length + ·) = [] := by
    intro length isLength
    obtain ⟨index, isIndex, rfl⟩ := List.mem_map.1 (List.mem_reverse.1 isLength)
    rw [List.mem_range] at isIndex
    have isDigit : index + 1 < (text.takeWhile isDecimal).length := by omega
    have front := List.takeWhile_prefix (l := text) isDecimal
    have isHere : index + 1 < text.length :=
      Nat.lt_of_lt_of_le isDigit front.length_le
    rw [List.drop_eq_getElem_cons isHere, lengths_endingTarget_of_decimal,
      List.map_nil]
    rw [← front.getElem isDigit]
    exact List.mem_takeWhile_imp (List.getElem_mem isDigit)
  rw [Target.lengths_both, Target.lengths_many_of_pos digits, List.flatMap_cons,
    List.flatMap_eq_nil_iff.2 fewer, List.append_nil]
  conv_lhs => rw [← split]
  rw [List.drop_left' digits]

/-- Of word characters the letters are those that are no decimal digits. -/
theorem takeWhile_isLetterLike
    {text : List Char}
    (isWord : ∀ c ∈ text, isWordChar c = true) :
    text.takeWhile isLetterLike = text.takeWhile (!isDecimal ·) := by
  induction text with
  | nil => rfl
  | cons c rest restHypothesis =>
    rw [List.forall_mem_cons] at isWord
    rw [List.takeWhile_cons, List.takeWhile_cons, restHypothesis isWord.2,
      isLetterLike, isWord.1, Bool.true_and]

/-- The first choice of the search in word characters is the piece that they
start with. -/
theorem head?_lengths_pieceTarget
    {c : Char}
    {rest : List Char}
    (isWord : ∀ d ∈ c :: rest, isWordChar d = true) :
    (pieceTarget.lengths (c :: rest)).head? =
      some (frontPiece (c :: rest)).length := by
  rw [pieceTarget, Target.lengths_either, Target.lengths_either]
  rcases isNumber : isDecimal c with _ | _
  · have sameRun := takeWhile_isLetterLike isWord
    have isLetter : isLetterLike c = true := by
      rw [isLetterLike, isWord c List.mem_cons_self, isNumber]
      rfl
    rw [Target.lengths_both, Target.lengths_many_of_neg isNumber, List.flatMap_nil,
      List.nil_append, List.nil_append, Target.head?_lengths_many isLetter,
      sameRun, frontPiece_letters rfl isNumber]
  · obtain ⟨more, digits⟩ : ∃ more,
        ((c :: rest).takeWhile isDecimal).length = more + 1 := by
      rw [List.takeWhile_cons_of_pos isNumber, List.length_cons]
      exact ⟨_, rfl⟩
    have behindIsWord : ∀ d ∈ (c :: rest).dropWhile isDecimal,
        isWordChar d = true := fun d isHere =>
      isWord d ((List.dropWhile_sublist _).subset isHere)
    rw [lengths_ordinal digits, lengths_endingTarget behindIsWord,
      frontPiece_number rfl isNumber, List.length_append, digits]
    cases ordinalEnding? ((c :: rest).dropWhile isDecimal) with
    | some ending => simp
    | none => simp [Target.lengths_many_of_pos digits]

/-- Searching word characters finds their pieces, one behind the other. -/
theorem findAll_pieceTarget
    {run : List Char}
    (isWord : ∀ c ∈ run, isWordChar c = true) :
    pieceTarget.findAll run = pieces run := by
  induction run using pieces_induction with
  | nil => rw [Target.findAll_nil, pieces_nil]
  | cons c rest behindHypothesis =>
    have split := frontPiece_append_drop (c :: rest)
    rw [pieces_cons, ← behindHypothesis fun d isHere =>
      isWord d (List.mem_of_mem_drop isHere)]
    conv_lhs => rw [← split]
    refine Target.findAll_append (frontPiece_ne_nil c rest) ?_
    rw [split]
    exact head?_lengths_pieceTarget isWord

/-! ## What the cutting keeps -/

/-- Texts cut a text: none of them is empty, and one behind the other they are
the text. -/
def Cuts (texts : List (List Char)) (text : List Char) : Prop :=
  (∀ part ∈ texts, part ≠ []) ∧ texts.flatten = text

theorem ne_nil_of_mem_runs
    {test : Char → Bool}
    {text run : List Char}
    (isRun : run ∈ runs test text) :
    run ≠ [] := by
  have pushed
      {front : List Char}
      {others : List (List Char)}
      (each : ∀ other ∈ others, other ≠ []) :
      ∀ other ∈ pushRun front others, other ≠ [] := by
    cases front with
    | nil => exact each
    | cons c front =>
      exact List.forall_mem_cons.2 ⟨List.cons_ne_nil c front, each⟩
  have behind : ∀ other ∈ (runsFrom test text).2, other ≠ [] := by
    clear isRun
    induction text with
    | nil => exact List.forall_mem_nil _
    | cons c text textHypothesis =>
      rw [runsFrom]
      by_cases holds : test c = true
      · simpa only [holds, if_true] using textHypothesis
      · simpa [holds] using pushed textHypothesis
  exact pushed behind run isRun

theorem isWordChar_of_mem_runs
    {text run : List Char}
    (isRun : run ∈ runs isWordChar text) :
    ∀ c ∈ run, isWordChar c = true := by
  intro c isHere
  have inRuns := List.mem_flatten.2 ⟨run, isRun, isHere⟩
  rw [flatten_runs] at inRuns
  exact (List.mem_filter.1 inRuns).2

/-- The word characters: letters, numbers and the underscore.  A surrogate is
none. -/
def isWordPoint (p : CodePoint) : Bool :=
  p.toChar?.any fun c => isWordChar c || c == '_'

theorem ofChar_of_toChar?
    {p : CodePoint}
    {c : Char}
    (isChar : p.toChar? = some c) :
    CodePoint.ofChar c = p :=
  CodePoint.eq_of_value_eq (CodePoint.toNat_of_toChar? isChar)

/-- Letters and numbers are the word characters but the underscore. -/
theorem isWordPoint_and_ne_underscore
    (p : CodePoint) :
    (isWordPoint p && p != .ofChar '_') = p.toChar?.any isWordChar := by
  rw [isWordPoint]
  cases isChar : p.toChar? with
  | none => rfl
  | some c =>
    rw [← ofChar_of_toChar? isChar, Option.any_some, Option.any_some]
    by_cases isUnderscore : c = '_'
    · rw [isUnderscore]
      decide +kernel
    · have apart : CodePoint.ofChar c ≠ .ofChar '_' := by
        intro same
        have chars := congrArg CodePoint.toChar? same
        rw [CodePoint.toChar?_ofChar, CodePoint.toChar?_ofChar] at chars
        exact isUnderscore (Option.some.inj chars)
      rw [beq_false_of_ne isUnderscore, bne_iff_ne.2 apart, Bool.or_false,
        Bool.and_true]

/-- The letters and numbers of a text, unpaired surrogates being none. -/
theorem ofChars_filter_legible
    (text : Text) :
    Text.ofChars (text.legible.filter isWordChar) =
      text.filter fun p => isWordPoint p && p != .ofChar '_' := by
  rw [List.filter_congr fun p _ => isWordPoint_and_ne_underscore p]
  induction text with
  | nil => rfl
  | cons p text textHypothesis =>
    rw [Text.legible, List.map_cons, ← Text.legible, List.filter_cons,
      List.filter_cons, ← textHypothesis]
    cases isChar : p.toChar? with
    | none =>
      have noLetter : isWordChar '\ufffd' = false := by decide +kernel
      rw [Option.getD_none, noLetter]
      rfl
    | some c =>
      rw [Option.getD_some, Option.any_some]
      cases isWordChar c with
      | false => rfl
      | true =>
        rw [if_pos rfl, if_pos rfl, ← ofChar_of_toChar? isChar]
        rfl

/-- The words of a text are found by two searches, one in the other, and by
cutting at capitals; each of these steps cuts what it is given.  So no word is
empty, and the words are all word characters of the text but the underscores,
in their order. -/
theorem words_are_word_characters
    (text : Text) :
    splitWords text.legible =
        ((Target.many isWordChar).findAll text.legible).flatMap (fun run =>
          (pieceTarget.findAll run).flatMap pieceWords) ∧
      Cuts ((Target.many isWordChar).findAll text.legible)
        (text.legible.filter isWordChar) ∧
      (∀ run ∈ (Target.many isWordChar).findAll text.legible,
        Cuts (pieceTarget.findAll run) run ∧
          ∀ piece ∈ pieceTarget.findAll run, Cuts (pieceWords piece) piece) ∧
      (∀ word ∈ splitWords text.legible, word ≠ []) ∧
      Text.ofChars (splitWords text.legible).flatten =
        text.filter fun p => isWordPoint p && p != .ofChar '_' := by
  have search {run : List Char} (isRun : run ∈ runs isWordChar text.legible) :
      pieceTarget.findAll run = pieces run :=
    findAll_pieceTarget (isWordChar_of_mem_runs isRun)
  rw [findAll_many]
  refine ⟨?_, ⟨fun run => ne_nil_of_mem_runs, flatten_runs _⟩, ?_,
    fun word => ne_nil_of_mem_splitWords, ?_⟩
  · refine List.flatMap_congr fun run isRun => ?_
    rw [search isRun]
  · intro run isRun
    rw [search isRun]
    exact ⟨⟨fun piece => ne_nil_of_mem_pieces, flatten_pieces run⟩,
      fun piece isPiece => ⟨fun word =>
        ne_nil_of_mem_pieceWords (ne_nil_of_mem_pieces isPiece),
        flatten_pieceWords piece⟩⟩
  · rw [flatten_splitWords_eq, ofChars_filter_legible]

end StoryName
end StoryMigration
