import Mathlib.Data.List.Chain
import StoryMigration.Proofs.FreshNames
import StoryMigration.Proofs.IdentifierWords
import StoryMigration.Story.Assembly

/-!
# Names that an identifier gives back

A display name in start case consists of words with a capital and small letters
behind it, and of numbers, with one space between two words.  Its identifier
runs these words together, and they are found again: a word ends where a number
starts or ends and in front of a capital, and nowhere else.  Underscores in
front separate nothing.  So the identifier gives back the name, however many
underscores make it unique.
-/

namespace StoryMigration
namespace StoryName

open Syntax Lexeme

/-! ## Letters and digits of ASCII -/

theorem facts_of_isUpper
    {c : Char}
    (capital : c.isUpper = true) :
    c.toNat < 128 ∧ c.isAlpha = true ∧ c.isLower = false ∧
      c.toLower.isLower = true ∧ c.toLower.toUpper = c ∧ c.toUpper = c := by
  have small : c.toNat < 128 := by
    refine toNat_lt_of_isAlphanum ?_
    delta Char.isAlphanum Char.isAlpha
    rw [capital, Bool.true_or, Bool.true_or]
  have facts := of_ascii (fun c => !c.isUpper || (c.isAlpha && !c.isLower &&
    c.toLower.isLower && c.toLower.toUpper == c && c.toUpper == c)) (by decide)
    small
  rw [capital] at facts
  simp only [Bool.not_true, Bool.false_or, Bool.and_eq_true,
    Bool.not_eq_true', beq_iff_eq, and_assoc] at facts
  exact ⟨small, facts⟩

theorem facts_of_isLower
    {c : Char}
    (isSmall : c.isLower = true) :
    c.toNat < 128 ∧ c.isAlpha = true ∧ c.isUpper = false ∧ c.toLower = c := by
  have small : c.toNat < 128 := by
    refine toNat_lt_of_isAlphanum ?_
    delta Char.isAlphanum Char.isAlpha
    rw [isSmall, Bool.or_true, Bool.true_or]
  have facts := of_ascii (fun c => !c.isLower || (c.isAlpha && !c.isUpper &&
    c.toLower == c)) (by decide) small
  rw [isSmall] at facts
  simp only [Bool.not_true, Bool.false_or, Bool.and_eq_true,
    Bool.not_eq_true', beq_iff_eq, and_assoc] at facts
  exact ⟨small, facts⟩

theorem facts_of_isDigit
    {c : Char}
    (digit : c.isDigit = true) :
    c.toNat < 128 ∧ c.toLower = c ∧ c.toUpper = c := by
  have small : c.toNat < 128 := by
    refine toNat_lt_of_isAlphanum ?_
    rw [Char.isAlphanum, digit, Bool.or_true]
  have facts := of_ascii (fun c => !c.isDigit ||
    (c.toLower == c && c.toUpper == c)) (by decide) small
  rw [digit] at facts
  simp only [Bool.not_true, Bool.false_or, Bool.and_eq_true, beq_iff_eq] at facts
  exact ⟨small, facts⟩

theorem facts_of_isAlpha
    {c : Char}
    (letter : c.isAlpha = true) :
    isWordChar c = true ∧ isDecimal c = false ∧ isDigitChar c = false := by
  have alphanumeric : c.isAlphanum = true := by
    rw [Char.isAlphanum, letter]
    rfl
  have facts := of_ascii (fun c => !c.isAlpha || (isWordChar c &&
    !isDecimal c && !isDigitChar c)) (by decide +kernel)
    (toNat_lt_of_isAlphanum alphanumeric)
  rw [letter] at facts
  simpa only [Bool.not_true, Bool.false_or, Bool.and_eq_true,
    Bool.not_eq_true', and_assoc] using facts

theorem isUpper_of_small
    {c : Char}
    (small : c.toNat < 128) :
    isUpper c = c.isUpper := if_pos small

theorem isLower_of_small
    {c : Char}
    (small : c.toNat < 128) :
    isLower c = c.isLower := if_pos small

/-- The lower case of an ASCII text is that of its characters. -/
theorem lower_of_small
    {text : List Char}
    (small : ∀ c ∈ text, c.toNat < 128) :
    lower text = text.map Char.toLower := by
  have behind (before : List Char) :
      lowerBehind before text = text.map Char.toLower := by
    induction text generalizing before with
    | nil => rfl
    | cons c text textHypothesis =>
      rw [List.forall_mem_cons] at small
      rw [lowerBehind, textHypothesis small.2, lowerBetween, if_pos small.1]
      rfl
  exact behind []

theorem map_toLower_eq_self
    {text : List Char}
    (fixed : ∀ c ∈ text, c.toLower = c) :
    text.map Char.toLower = text :=
  (List.map_congr_left fixed).trans (List.map_id' text)

/-! ## Words in start case -/

/-- A number, written with ASCII digits. -/
def IsNumeral (word : List Char) : Prop :=
  word ≠ [] ∧ ∀ c ∈ word, c.isDigit = true

/-- Two ASCII letters or more, all small but perhaps the first. -/
def IsLetters (word : List Char) : Prop :=
  ∃ first rest, word = first :: rest ∧ first.isAlpha = true ∧ rest ≠ [] ∧
    ∀ c ∈ rest, c.isLower = true

/-- An ASCII capital with small ASCII letters behind it. -/
def IsCapitalWord (word : List Char) : Prop :=
  ∃ first rest, word = first :: rest ∧ first.isUpper = true ∧ rest ≠ [] ∧
    ∀ c ∈ rest, c.isLower = true

/-- The words of a name in start case: words with a capital and numbers, with no
number directly behind another one. -/
structure IsStartCase (words : List (List Char)) : Prop where
  each : ∀ word ∈ words, IsCapitalWord word ∨ IsNumeral word
  apart : words.IsChain fun word next => ¬(IsNumeral word ∧ IsNumeral next)

/-- Words with one space between two. -/
def spaced (words : List (List Char)) : List Char := [' '].intercalate words

theorem IsCapitalWord.isLetters
    {word : List Char}
    (capital : IsCapitalWord word) :
    IsLetters word := by
  obtain ⟨first, rest, rfl, isUpper, notEmpty, small⟩ := capital
  exact ⟨first, rest, rfl, (facts_of_isUpper isUpper).2.1, notEmpty, small⟩

theorem IsNumeral.lower_eq
    {word : List Char}
    (numeral : IsNumeral word) :
    lower word = word := by
  rw [lower_of_small fun c member => (facts_of_isDigit (numeral.2 c member)).1]
  exact map_toLower_eq_self fun c member =>
    (facts_of_isDigit (numeral.2 c member)).2.1

theorem IsNumeral.capitalized_eq
    {word : List Char}
    (numeral : IsNumeral word) :
    capitalized word = word := by
  obtain ⟨c, rest, rfl⟩ := List.exists_cons_of_ne_nil numeral.1
  obtain ⟨small, -, raised⟩ :=
    facts_of_isDigit (numeral.2 c List.mem_cons_self)
  rw [capitalized, upper, if_pos small, raised]
  rfl

theorem lower_capitalWord
    {first : Char}
    {rest : List Char}
    (capital : first.isUpper = true)
    (small : ∀ c ∈ rest, c.isLower = true) :
    lower (first :: rest) = first.toLower :: rest := by
  rw [lower_of_small (List.forall_mem_cons.2 ⟨(facts_of_isUpper capital).1,
    fun c member => (facts_of_isLower (small c member)).1⟩), List.map_cons,
    map_toLower_eq_self fun c member =>
      (facts_of_isLower (small c member)).2.2.2]

theorem IsCapitalWord.isLetters_lower
    {word : List Char}
    (capital : IsCapitalWord word) :
    IsLetters (lower word) := by
  obtain ⟨first, rest, rfl, isCapital, notEmpty, small⟩ := capital
  have lowered := (facts_of_isUpper isCapital).2.2.2.1
  exact ⟨first.toLower, rest, lower_capitalWord isCapital small,
    (facts_of_isLower lowered).2.1, notEmpty, small⟩

/-- A word with a capital keeps it, and gets it back. -/
theorem IsCapitalWord.capitalized_eq
    {word : List Char}
    (capital : IsCapitalWord word) :
    capitalized word = word ∧ capitalized (lower word) = word := by
  obtain ⟨first, rest, rfl, isCapital, -, small⟩ := capital
  obtain ⟨firstSmall, -, -, lowered, raised, same⟩ := facts_of_isUpper isCapital
  rw [lower_capitalWord isCapital small, capitalized, capitalized, upper, upper,
    if_pos firstSmall, if_pos (facts_of_isLower lowered).1, raised, same]
  exact ⟨rfl, rfl⟩

/-! ## Where a word ends -/

/-- Small letters start no word. -/
theorem wordsBehind_of_forall
    {previous : Char}
    {text : List Char}
    (small : ∀ c ∈ text, isUpper c = false) :
    wordsBehind previous text = (text, []) := by
  induction text generalizing previous with
  | nil => rfl
  | cons c text textHypothesis =>
    rw [List.forall_mem_cons] at small
    rw [wordsBehind, textHypothesis small.2]
    simp [startsWord, small.1]

/-- A capital behind a character that is none starts a word. -/
theorem wordsBehind_append_cons
    {previous c : Char}
    {front : List Char}
    (capital : isUpper c = true ∧ isLower c = false)
    (behindSmall : ∀ last ∈ (previous :: front).getLast?, isUpper last = false)
    (behind : List Char) :
    wordsBehind previous (front ++ c :: behind) =
      ((wordsBehind previous front).1,
        (wordsBehind previous front).2 ++ splitCase (c :: behind)) := by
  induction front generalizing previous with
  | nil =>
    have starts : startsWord previous c behind.head? = true := by
      rw [startsWord, capital.1, behindSmall previous rfl]
      rfl
    simp [wordsBehind, starts, splitCase]
  | cons d front frontHypothesis =>
    rw [List.getLast?_cons_cons] at behindSmall
    have sameStart : startsWord previous d (front ++ c :: behind).head? =
        startsWord previous d front.head? := by
      cases front with
      | nil => simp [startsWord, capital.2]
      | cons e front => rfl
    rw [List.cons_append, wordsBehind, wordsBehind,
      frontHypothesis behindSmall, sameStart]
    cases startsWord previous d front.head? with
    | false => rfl
    | true => rfl

theorem splitCase_append_cons
    {c : Char}
    {front : List Char}
    (capital : isUpper c = true ∧ isLower c = false)
    (notEmpty : front ≠ [])
    (behindSmall : ∀ last ∈ front.getLast?, isUpper last = false)
    (behind : List Char) :
    splitCase (front ++ c :: behind) =
      splitCase front ++ splitCase (c :: behind) := by
  obtain ⟨first, rest, rfl⟩ := List.exists_cons_of_ne_nil notEmpty
  rw [List.cons_append, splitCase, splitCase,
    wordsBehind_append_cons capital behindSmall]
  rfl

theorem IsLetters.getLast?_small
    {word : List Char}
    (letters : IsLetters word) :
    ∀ last ∈ word.getLast?, isUpper last = false := by
  obtain ⟨first, rest, rfl, -, notEmpty, small⟩ := letters
  obtain ⟨second, more, rfl⟩ := List.exists_cons_of_ne_nil notEmpty
  intro last isLast
  rw [List.getLast?_cons_cons] at isLast
  obtain ⟨isSmall, -, notUpper, -⟩ :=
    facts_of_isLower (small last (List.mem_of_getLast? isLast))
  rw [isUpper_of_small isSmall, notUpper]

/-- One word of letters is not cut. -/
theorem IsLetters.splitCase_eq
    {word : List Char}
    (letters : IsLetters word) :
    splitCase word = [word] := by
  obtain ⟨first, rest, rfl, -, -, small⟩ := letters
  have noCapital (c : Char) (member : c ∈ rest) : isUpper c = false := by
    obtain ⟨isSmall, -, notUpper, -⟩ := facts_of_isLower (small c member)
    rw [isUpper_of_small isSmall, notUpper]
  rw [splitCase, wordsBehind_of_forall noCapital]

/-- A run of letters is cut in front of its capitals. -/
theorem IsLetters.splitCase_append
    {word : List Char}
    (letters : IsLetters word)
    {others : List (List Char)}
    (capitals : ∀ other ∈ others, IsCapitalWord other) :
    splitCase (word ++ others.flatten) = word :: others := by
  induction others generalizing word with
  | nil => rw [List.flatten_nil, List.append_nil, letters.splitCase_eq]
  | cons other others othersHypothesis =>
    rw [List.forall_mem_cons] at capitals
    have later := othersHypothesis capitals.1.isLetters capitals.2
    have notEmpty : word ≠ [] := by
      obtain ⟨first, rest, rfl, -⟩ := letters
      exact List.cons_ne_nil first rest
    obtain ⟨first, rest, rfl, isCapital, -⟩ := capitals.1
    obtain ⟨isSmall, -, notLower, -⟩ := facts_of_isUpper isCapital
    have capital : isUpper first = true ∧ isLower first = false := by
      rw [isUpper_of_small isSmall, isLower_of_small isSmall]
      exact ⟨isCapital, notLower⟩
    rw [List.flatten_cons, List.cons_append, splitCase_append_cons capital
      notEmpty letters.getLast?_small, letters.splitCase_eq, ← List.cons_append,
      later, List.singleton_append]

/-! ## Where a number ends -/

/-- No ordinal's ending starts with a capital. -/
theorem ordinalEnding?_of_capital
    {text : List Char}
    (capital : ∀ c ∈ text.head?, c.isUpper = true) :
    ordinalEnding? text = none := by
  unfold ordinalEnding?
  split
  · rename_i a b rest
    refine if_neg fun found => ?_
    have small : ["st", "nd", "rd", "th"].all
        (fun ending => ending.toList.head?.all (!·.isUpper)) = true := by
      decide
    have own := List.all_eq_true.1 small _ (List.contains_iff_mem.1 found)
    rw [String.toList_ofList, List.head?_cons, Option.all_some,
      capital a rfl] at own
    contradiction
  · rfl

theorem IsCapitalWord.head?_flatten
    {words : List (List Char)}
    (capital : ∀ word ∈ words.head?, IsCapitalWord word) :
    ∀ c ∈ words.flatten.head?, c.isUpper = true := by
  cases words with
  | nil => exact fun c none => absurd none (Option.not_mem_none c)
  | cons word words =>
    obtain ⟨first, rest, rfl, isCapital, -⟩ := capital word rfl
    intro c isHead
    rw [← Option.some.inj isHead]
    exact isCapital

/-- A number in front of a capital, or at the end, is a word. -/
theorem IsNumeral.runWords_append
    {word : List Char}
    (numeral : IsNumeral word)
    {behind : List Char}
    (capital : ∀ c ∈ behind.head?, c.isUpper = true) :
    runWords (word ++ behind) = word :: runWords behind := by
  have decimal (c : Char) (member : c ∈ word) : isDecimal c = true :=
    isDecimal_of_isDigit (numeral.2 c member)
  have ends : behind.takeWhile isDecimal = [] ∧
      behind.dropWhile isDecimal = behind := by
    cases behind with
    | nil => exact ⟨rfl, rfl⟩
    | cons c behind =>
      have letter := (facts_of_isAlpha (facts_of_isUpper (capital c rfl)).2.1).2.1
      rw [List.takeWhile_cons_of_neg, List.dropWhile_cons_of_neg]
      · exact ⟨rfl, rfl⟩
      · exact Bool.eq_false_iff.1 letter
      · exact Bool.eq_false_iff.1 letter
  obtain ⟨first, rest, rfl⟩ := List.exists_cons_of_ne_nil numeral.1
  have isFront : frontPiece (first :: rest ++ behind) = first :: rest := by
    rw [frontPiece_number rfl (decimal first List.mem_cons_self),
      List.takeWhile_append_of_pos decimal, List.dropWhile_append_of_pos decimal,
      ends.1, ends.2, ordinalEnding?_of_capital capital, List.append_nil,
      Option.getD_none, List.append_nil]
  have whole : pieceWords (first :: rest) = [first :: rest] := by
    refine if_pos ?_
    exact Bool.or_eq_true_iff.2 (.inl (decimal first List.mem_cons_self))
  rw [runWords, pieces_append (List.cons_ne_nil _ _) isFront, List.flatMap_cons,
    whole]
  rfl

theorem IsLetters.isAlpha
    {word : List Char}
    (letters : IsLetters word) :
    ∀ c ∈ word, c.isAlpha = true := by
  obtain ⟨first, rest, rfl, isAlpha, -, small⟩ := letters
  rw [List.forall_mem_cons]
  exact ⟨isAlpha, fun c member => (facts_of_isLower (small c member)).2.1⟩

/-- A run of letters in front of a number, or at the end, is cut in front of its
capitals. -/
theorem IsLetters.runWords_append
    {word : List Char}
    (letters : IsLetters word)
    {others : List (List Char)}
    (capitals : ∀ other ∈ others, IsCapitalWord other)
    {behind : List Char}
    (number : ∀ c ∈ behind.head?, c.isDigit = true) :
    runWords (word ++ others.flatten ++ behind) =
      word :: others ++ runWords behind := by
  have noNumber : ∀ c ∈ word ++ others.flatten, (!isDecimal c) = true := by
    intro c member
    rw [Bool.not_eq_true']
    refine (facts_of_isAlpha ?_).2.1
    rcases List.mem_append.1 member with inWord | inOthers
    · exact letters.isAlpha c inWord
    · obtain ⟨other, isOther, inOther⟩ := List.mem_flatten.1 inOthers
      exact (capitals other isOther).isLetters.isAlpha c inOther
  have ends : behind.takeWhile (!isDecimal ·) = [] := by
    cases behind with
    | nil => rfl
    | cons c behind =>
      refine List.takeWhile_cons_of_neg fun noDigit => ?_
      rw [isDecimal_of_isDigit (number c rfl)] at noDigit
      contradiction
  have whole := letters.splitCase_append capitals
  obtain ⟨first, rest, rfl, isAlpha, -⟩ := letters
  obtain ⟨-, noDecimal, noDigit⟩ := facts_of_isAlpha isAlpha
  have isFront : frontPiece (first :: rest ++ others.flatten ++ behind) =
      first :: rest ++ others.flatten := by
    rw [frontPiece_letters rfl noDecimal, List.takeWhile_append_of_pos noNumber,
      ends, List.append_nil]
  have cut : pieceWords (first :: rest ++ others.flatten) =
      (first :: rest) :: others := by
    rw [← whole]
    exact if_neg (Bool.eq_false_iff.1 noDigit)
  have notEmpty : first :: rest ++ others.flatten ≠ [] := List.cons_ne_nil _ _
  rw [runWords, pieces_append notEmpty isFront, List.flatMap_cons, cut]
  rfl

/-! ## Names in start case -/

theorem IsStartCase.tail
    {word : List Char}
    {words : List (List Char)}
    (startCase : IsStartCase (word :: words)) :
    IsStartCase words :=
  ⟨(List.forall_mem_cons.1 startCase.each).2, startCase.apart.tail⟩

/-- No number stands behind a number. -/
theorem IsStartCase.capital_of_numeral
    {word : List Char}
    {words : List (List Char)}
    (startCase : IsStartCase (word :: words))
    (numeral : IsNumeral word) :
    ∀ next ∈ words.head?, IsCapitalWord next := by
  cases words with
  | nil => exact fun next none => absurd none (Option.not_mem_none next)
  | cons second words =>
    intro next isHead
    rw [← Option.some.inj isHead]
    rcases startCase.tail.each second List.mem_cons_self with capital | number
    · exact capital
    · exact absurd ⟨numeral, number⟩
        (List.isChain_cons_cons.1 startCase.apart).1

/-- Words in start case without spaces are found again, behind letters that are
cut already and, if no number comes first, alone. -/
theorem IsStartCase.runWords_flatten
    {words : List (List Char)}
    (startCase : IsStartCase words) :
    (∀ word others, IsLetters word →
        (∀ other ∈ others, IsCapitalWord other) →
        runWords (word ++ others.flatten ++ words.flatten) =
          word :: others ++ words) ∧
      ((∀ word ∈ words.head?, IsCapitalWord word) →
        runWords words.flatten = words) := by
  induction words with
  | nil =>
    refine ⟨fun word others letters capitals => ?_, fun _ => rfl⟩
    exact letters.runWords_append capitals
      fun c none => absurd none (Option.not_mem_none c)
  | cons next words wordsHypothesis =>
    obtain ⟨behindLetters, alone⟩ := wordsHypothesis startCase.tail
    constructor
    · intro word others letters capitals
      rw [List.flatten_cons]
      rcases startCase.each next List.mem_cons_self with capital | numeral
      · -- one more word of the same run of letters
        have more := behindLetters word (others ++ [next]) letters
          (List.forall_mem_append.2
            ⟨capitals, List.forall_mem_singleton.2 capital⟩)
        rw [List.flatten_append, List.flatten_singleton] at more
        simpa using more
      · have capital := startCase.capital_of_numeral numeral
        have digit : ∀ c ∈ (next ++ words.flatten).head?, c.isDigit = true := by
          obtain ⟨first, rest, rfl⟩ := List.exists_cons_of_ne_nil numeral.1
          intro c isHead
          rw [← Option.some.inj isHead]
          exact numeral.2 first List.mem_cons_self
        rw [letters.runWords_append capitals digit, numeral.runWords_append
          (IsCapitalWord.head?_flatten capital), alone capital]
    · intro first
      have capital := first next rfl
      have own := behindLetters next [] capital.isLetters (List.forall_mem_nil _)
      simpa using own

/-- A word in start case consists of letters or of digits and is not cut. -/
theorem splitWords_word
    {word : List Char}
    (isWord : IsCapitalWord word ∨ IsNumeral word) :
    (∀ c ∈ word, isWordChar c = true) ∧ splitWords word = [word] := by
  have wordChars : ∀ c ∈ word, isWordChar c = true := by
    intro c member
    rcases isWord with capital | numeral
    · exact (facts_of_isAlpha (capital.isLetters.isAlpha c member)).1
    · refine isWordChar_of_isAlphanum ?_
      rw [Char.isAlphanum, numeral.2 c member, Bool.or_true]
  have startCase : IsStartCase [word] :=
    ⟨List.forall_mem_singleton.2 isWord, List.isChain_singleton word⟩
  refine ⟨wordChars, ?_⟩
  rw [splitWords_of_forall wordChars]
  rcases isWord with capital | numeral
  · have alone := startCase.runWords_flatten.2 fun next isHead => by
      rw [← Option.some.inj isHead]
      exact capital
    rwa [List.flatten_singleton] at alone
  · have alone := @IsNumeral.runWords_append word numeral []
      fun c none => absurd none (Option.not_mem_none c)
    rwa [List.append_nil] at alone

theorem spaced_cons_cons
    (word next : List Char)
    (words : List (List Char)) :
    spaced (word :: next :: words) = word ++ ' ' :: spaced (next :: words) := by
  rw [spaced, List.intercalate_cons_cons, List.append_assoc,
    List.singleton_append]
  rfl

/-- A name in start case has its words. -/
theorem IsStartCase.splitWords_spaced
    {words : List (List Char)}
    (startCase : IsStartCase words) :
    splitWords (spaced words) = words := by
  induction words with
  | nil => rfl
  | cons word words wordsHypothesis =>
    have own := (splitWords_word (startCase.each word List.mem_cons_self)).2
    cases words with
    | nil =>
      rw [spaced, List.intercalate_singleton]
      exact own
    | cons next words =>
      rw [spaced_cons_cons, splitWords_append_cons (by decide), own,
        wordsHypothesis startCase.tail, List.singleton_append]

/-! ## Identifiers of names in start case -/

/-- The words of a name, run together, with a small letter in front. -/
theorem IsStartCase.identifierKey_spaced
    {word : List Char}
    {words : List (List Char)}
    (startCase : IsStartCase (word :: words)) :
    identifierKey (spaced (word :: words)) = lower word ++ words.flatten := by
  have kept : ∀ next ∈ words, capitalized (lower next) = next := by
    intro next isNext
    rcases startCase.tail.each next isNext with capital | numeral
    · exact capital.capitalized_eq.2
    · rw [numeral.lower_eq, numeral.capitalized_eq]
  have camel : camelCase (word :: words) = lower word ++ words.flatten := by
    rw [camelCase, List.flatMap_def, List.map_congr_left kept, List.map_id']
  have notEmpty : camelCase (word :: words) ≠ [] := by
    rw [camel]
    rcases startCase.each word List.mem_cons_self with capital | numeral
    · obtain ⟨first, rest, lowerEq, -⟩ := capital.isLetters_lower
      rw [lowerEq]
      exact List.cons_ne_nil first _
    · rw [numeral.lower_eq]
      exact fun none => numeral.1 (List.append_eq_nil_iff.1 none).1
  rw [identifierKey, startCase.splitWords_spaced, if_neg notEmpty, camel]

/-- The words that are run together are found again. -/
theorem IsStartCase.splitWords_key
    {word : List Char}
    {words : List (List Char)}
    (startCase : IsStartCase (word :: words)) :
    splitWords (lower word ++ words.flatten) = lower word :: words := by
  have later : ∀ c ∈ words.flatten, isWordChar c = true := by
    intro c member
    obtain ⟨next, isNext, inNext⟩ := List.mem_flatten.1 member
    exact (splitWords_word (startCase.tail.each next isNext)).1 c inNext
  rcases startCase.each word List.mem_cons_self with capital | numeral
  · have letters := capital.isLetters_lower
    have cut := startCase.tail.runWords_flatten.1 (lower word) [] letters
      (List.forall_mem_nil _)
    rw [splitWords_of_forall (List.forall_mem_append.2
      ⟨fun c member => (facts_of_isAlpha (letters.isAlpha c member)).1, later⟩)]
    simpa using cut
  · have capital := startCase.capital_of_numeral numeral
    rw [numeral.lower_eq, splitWords_of_forall (List.forall_mem_append.2
      ⟨(splitWords_word (.inr numeral)).1, later⟩),
      numeral.runWords_append (IsCapitalWord.head?_flatten capital),
      startCase.tail.runWords_flatten.2 capital]

/-- Underscores in front of a text separate nothing. -/
theorem splitWords_replicate_append
    (count : Nat)
    (text : List Char) :
    splitWords (List.replicate count '_' ++ text) = splitWords text := by
  induction count with
  | zero => rfl
  | succ count countHypothesis =>
    have front := splitWords_append_cons (c := '_') (by decide) []
      (List.replicate count '_' ++ text)
    rw [List.replicate_succ, List.cons_append]
    exact front.trans countHypothesis

theorem IsStartCase.map_capitalized
    {word : List Char}
    {words : List (List Char)}
    (startCase : IsStartCase (word :: words)) :
    (lower word :: words).map capitalized = word :: words := by
  have first : capitalized (lower word) = word := by
    rcases startCase.each word List.mem_cons_self with capital | numeral
    · exact capital.capitalized_eq.2
    · rw [numeral.lower_eq, numeral.capitalized_eq]
  have kept : ∀ next ∈ words, capitalized next = next := by
    intro next isNext
    rcases startCase.tail.each next isNext with capital | numeral
    · exact capital.capitalized_eq.1
    · exact numeral.capitalized_eq
  rw [List.map_cons, first, List.map_congr_left kept, List.map_id']

/-- The identifier of a name in start case gives the name back. -/
theorem IsStartCase.displayName_eq
    {words : List (List Char)}
    (startCase : IsStartCase words)
    (notEmpty : words ≠ [])
    (count : Nat) :
    displayName
        (NamePool.prefixed count (identifierOf (spaced words))).toList =
      String.ofList (spaced words) := by
  obtain ⟨word, words, rfl⟩ := List.exists_cons_of_ne_nil notEmpty
  obtain ⟨more, keyEq, -⟩ :=
    exists_guarded_eq (identifierKey (spaced (word :: words)))
  rw [NamePool.toList_prefixed, identifierOf_eq_guarded, keyEq, displayName,
    splitWords_replicate_append, splitWords_replicate_append,
    startCase.identifierKey_spaced, startCase.splitWords_key]
  apply String.toList_injective
  rw [String.toList_intercalate, String.toList_ofList, List.map_map]
  have each : (lower word :: words).map
      (String.toList ∘ fun word => String.ofList (capitalized word)) =
        (lower word :: words).map capitalized :=
    List.map_congr_left fun _ _ => String.toList_ofList
  rw [each, startCase.map_capitalized, String.toList_ofList]
  rfl

/-- The identifier of a story is that of its name behind underscores. -/
theorem exists_identifier_eq_of_mem_named
    {inUse : NamePool}
    {entries : List Story.Entry}
    {story : Story.NamedEntry}
    (member : story ∈ Story.named inUse entries) :
    ∃ used, story.identifier =
      NamePool.prefixed used (identifierOf story.entry.name.legible) := by
  induction entries generalizing inUse with
  | nil => exact absurd member List.not_mem_nil
  | cons entry entries entriesHypothesis =>
    obtain ⟨used, claims, -⟩ := inUse.claimStories_cons entry.name.legible
      (entries.map fun entry => entry.name.legible)
    rw [Story.named, List.map_cons, claims, List.zip_cons_cons, List.map_cons]
      at member
    rcases List.mem_cons.1 member with rfl | later
    · exact ⟨used, rfl⟩
    · exact entriesHypothesis later

theorem legible_ofChars
    (chars : List Char) :
    (Text.ofChars chars).legible = chars := by
  unfold Text.legible Text.ofChars
  rw [List.map_map]
  refine (List.map_congr_left fun c _ => ?_).trans (List.map_id chars)
  rw [Function.comp_apply, CodePoint.toChar?_ofChar]
  rfl

/-- A name of words in start case is the display name of its identifier, with
any number of underscores in front.  So a story of this name has it without
stating it, whatever names are in use and whatever stories come before. -/
theorem start_case_names_are_recovered
    {words : List (List Char)}
    (startCase : IsStartCase words)
    (notEmpty : words ≠ []) :
    (∀ count, displayName
        (NamePool.prefixed count (identifierOf (spaced words))).toList =
          String.ofList (spaced words)) ∧
      ∀ inUse entries, ∀ story ∈ Story.named inUse entries,
        story.entry.name = Text.ofChars (spaced words) →
          story.nameIsRedundant = true := by
  refine ⟨startCase.displayName_eq notEmpty, ?_⟩
  intro inUse entries story member nameEq
  obtain ⟨used, identifierEq⟩ := exists_identifier_eq_of_mem_named member
  rw [nameEq, legible_ofChars] at identifierEq
  rw [Story.NamedEntry.nameIsRedundant, identifierEq,
    startCase.displayName_eq notEmpty, nameEq, Text.ofString,
    String.toList_ofList, beq_self_eq_true]

/-- A number comes first, what would be an ordinal's ending stands behind it, and
the identifier is in use. -/
theorem start_case_names_are_recovered_number_first :
    ∃ entry story,
      IsStartCase [['1'], ['S', 't'], ['A', 'c', 't']] ∧
      entry.name = Text.ofString "1 St Act" ∧
      Story.named (.ofList ["_1StAct"]) [entry] = [story] ∧
      story.identifier = "__1StAct" ∧
      displayName "__1StAct".toList = "1 St Act" ∧
      story.nameIsRedundant = true := by
  have startCase : IsStartCase [['1'], ['S', 't'], ['A', 'c', 't']] := by
    constructor
    · rw [List.forall_mem_cons, List.forall_mem_cons, List.forall_mem_singleton]
      refine ⟨.inr ⟨List.cons_ne_nil _ _, List.forall_mem_singleton.2 rfl⟩,
        .inl ⟨'S', ['t'], rfl, rfl, List.cons_ne_nil _ _,
          List.forall_mem_singleton.2 rfl⟩,
        .inl ⟨'A', ['c', 't'], rfl, rfl, List.cons_ne_nil _ _, ?_⟩⟩
      exact List.forall_mem_cons.2 ⟨rfl, List.forall_mem_singleton.2 rfl⟩
    · rw [List.isChain_cons_cons, List.isChain_cons_cons]
      refine ⟨fun both => ?_, fun both => ?_, List.isChain_singleton _⟩
      · exact absurd (both.2.2 'S' List.mem_cons_self) (by decide)
      · exact absurd (both.1.2 'S' List.mem_cons_self) (by decide)
  obtain ⟨recovered, redundant⟩ :=
    start_case_names_are_recovered startCase (by decide)
  have identifierEq : NamePool.prefixed 1 (identifierOf
      (spaced [['1'], ['S', 't'], ['A', 'c', 't']])) = "__1StAct" := by
    decide +kernel
  have own := recovered 1
  rw [identifierEq] at own
  have claimed : (NamePool.ofList ["_1StAct"]).claimStories
      [(Text.ofString "1 St Act").legible] = ["__1StAct"] := by
    decide +kernel
  refine ⟨⟨.ofString "1 St Act", default, none, none, []⟩,
    ⟨⟨.ofString "1 St Act", default, none, none, []⟩, "__1StAct"⟩,
    startCase, rfl, ?_, rfl, own, ?_⟩
  · rw [Story.named, List.map_singleton, claimed]
    rfl
  · refine redundant (.ofList ["_1StAct"])
      [⟨.ofString "1 St Act", default, none, none, []⟩] _ ?_ rfl
    rw [Story.named, List.map_singleton, claimed]
    exact List.mem_singleton_self _

end StoryName
end StoryMigration
