import StoryMigration.Proofs.ResidualLines

/-!
# What a residual root begins with

The beginning of a residual root is made of blanks, a keyword, blanks, a name,
blanks, an equals sign, blanks, and the registration function with an opening
parenthesis.  Bytes are found to begin like a residual root exactly when some
such beginning stands in front of them, although every part but the blanks
before the function is read as far as it goes.
-/

namespace StoryMigration
namespace Residual

open Utf8

variable {bytes front rest call : List UInt8} {test : UInt8 → Bool}

/-- The keywords that declare a variable. -/
def keywords : List (List UInt8) :=
  [ofString "const", ofString "let", ofString "var"]

/-- The beginning of a residual root, without the function it calls. -/
structure RootFront where
  /-- What stands in front of the keyword. -/
  blanks : List UInt8
  keyword : List UInt8
  gap : List UInt8
  /-- The variable. -/
  word : List UInt8
  /-- What stands in front of the equals sign. -/
  before : List UInt8
  /-- What stands behind the equals sign. -/
  after : List UInt8
  blanks_gap : ∀ b ∈ blanks, isGap b = true
  keyword_mem : keyword ∈ keywords
  gap_ne_nil : gap ≠ []
  gap_gap : ∀ b ∈ gap, isGap b = true
  word_ne_nil : word ≠ []
  word_name : ∀ b ∈ word, isNameByte b = true
  before_gap : ∀ b ∈ before, isGap b = true
  after_gap : ∀ b ∈ after, isGap b = true

/-- The bytes of the beginning of a root that calls a function. -/
def RootFront.spelled (front : RootFront) (name : List UInt8) : List UInt8 :=
  front.blanks ++ (front.keyword ++ (front.gap ++ (front.word ++
    (front.before ++ (0x3d :: (front.after ++ (name ++ [0x28])))))))

/-! ## Parts that are found -/

theorem exists_of_behindSome?
    (found : behindSome? test bytes = some rest) :
    ∃ front, front ≠ [] ∧ (∀ b ∈ front, test b = true) ∧ bytes = front ++ rest := by
  cases bytes with
  | nil => contradiction
  | cons b bytes =>
    unfold behindSome? at found
    simp only at found
    split at found
    · rename_i holds
      rw [← Option.some.inj found]
      refine ⟨b :: bytes.takeWhile test, List.cons_ne_nil _ _, ?_, ?_⟩
      · rw [List.forall_mem_cons]
        exact ⟨holds, fun _ member => List.mem_takeWhile_imp member⟩
      · rw [List.cons_append, List.takeWhile_append_dropWhile]
    · contradiction

theorem exists_of_behindKeyword?
    (found : behindKeyword? bytes = some rest) :
    ∃ keyword ∈ keywords, bytes = keyword ++ rest := by
  unfold behindKeyword? at found
  simp only [Option.orElse_eq_orElse, Option.orElse_eq_or, Option.or_eq_some_iff]
    at found
  rcases found with isConst | ⟨-, isLet | ⟨-, isVar⟩⟩
  · exact ⟨_, .head _, eq_append_of_behind? isConst⟩
  · exact ⟨_, .tail _ (.head _), eq_append_of_behind? isLet⟩
  · exact ⟨_, .tail _ (.tail _ (.head _)), eq_append_of_behind? isVar⟩

theorem exists_of_startsCall
    (found : startsCall call bytes = some rest) :
    ∃ after, (∀ b ∈ after, isGap b = true) ∧ bytes = after ++ (call ++ rest) := by
  fun_induction startsCall call bytes with
  | case1 =>
    exact ⟨[], fun _ member => absurd member List.not_mem_nil,
      (eq_append_of_behind? found).trans (List.nil_append _).symm⟩
  | case2 b bytes more here =>
    rw [← Option.some.inj found]
    exact ⟨[], fun _ member => absurd member List.not_mem_nil,
      (eq_append_of_behind? here).trans (List.nil_append _).symm⟩
  | case3 b bytes _ isBlank bytesHypothesis =>
    obtain ⟨after, areBlanks, split⟩ := bytesHypothesis found
    exact ⟨b :: after, List.forall_mem_cons.2 ⟨isBlank, areBlanks⟩,
      by rw [split, List.cons_append]⟩
  | case4 => contradiction

/-! ## Finding the parts -/

theorem behind?_append
    (front rest : List UInt8) :
    behind? front (front ++ rest) = some rest := by
  induction front with
  | nil => rfl
  | cons b front frontHypothesis =>
    rw [List.cons_append, behind?, if_pos rfl, frontHypothesis]

theorem behindKeyword?_append
    {keyword : List UInt8}
    (isKeyword : keyword ∈ keywords)
    (rest : List UInt8) :
    behindKeyword? (keyword ++ rest) = some rest := by
  simp only [keywords, List.mem_cons, List.not_mem_nil, or_false] at isKeyword
  rcases isKeyword with rfl | rfl | rfl <;> rfl

theorem behindSome?_append
    (some_front : front ≠ [])
    (passes : ∀ b ∈ front, test b = true)
    (stops : ∀ b ∈ rest.head?, test b = false) :
    behindSome? test (front ++ rest) = some rest := by
  cases front with
  | nil => exact absurd rfl some_front
  | cons b front =>
    rw [List.forall_mem_cons] at passes
    rw [List.cons_append, behindSome?]
    simp only [passes.1, if_true]
    rw [dropWhile_append_of_stops passes.2 stops]

theorem startsCall_append
    {after : List UInt8}
    (areBlanks : ∀ b ∈ after, isGap b = true)
    (call rest : List UInt8) :
    (startsCall call (after ++ (call ++ rest))).isSome = true := by
  induction after with
  | nil =>
    have here := behind?_append call rest
    rw [List.nil_append]
    cases whole : call ++ rest with
    | nil =>
      rw [whole] at here
      rw [startsCall, here, Option.isSome_some]
    | cons b more =>
      rw [whole] at here
      rw [startsCall, here]
      rfl
  | cons b after afterHypothesis =>
    rw [List.forall_mem_cons] at areBlanks
    rw [List.cons_append, startsCall]
    split
    · rfl
    · rw [if_pos areBlanks.1]
      exact afterHypothesis areBlanks.2

/-! ## The whole beginning -/

/-- The first byte of a list that is not empty, in front of others. -/
theorem head?_append_mem
    (some_front : front ≠ [])
    {b : UInt8}
    (first : b ∈ (front ++ rest).head?) :
    b ∈ front := by
  rw [List.head?_append_of_ne_nil _ some_front] at first
  exact List.mem_of_mem_head? first

theorem isGap_of_mem_keywords
    {keyword : List UInt8}
    (isKeyword : keyword ∈ keywords) :
    keyword ≠ [] ∧ ∀ b ∈ keyword, isGap b = false := by
  simp only [keywords, List.mem_cons, List.not_mem_nil, or_false] at isKeyword
  rcases isKeyword with rfl | rfl | rfl <;> decide +kernel

theorem isGap_of_isNameByte
    {b : UInt8}
    (isName : isNameByte b = true) :
    isGap b = false := by
  by_contra isBlank
  rw [Bool.not_eq_false, isGap, Bool.or_eq_true, beq_iff_eq, beq_iff_eq]
    at isBlank
  rcases isBlank with rfl | rfl <;> contradiction

theorem isNameByte_of_isGap
    {b : UInt8}
    (isBlank : isGap b = true) :
    isNameByte b = false := by
  by_contra isName
  rw [Bool.not_eq_false] at isName
  rw [isGap_of_isNameByte isName] at isBlank
  contradiction

/-- What follows the blanks in front of a root is its keyword. -/
theorem RootFront.takeWhile_eq
    (front : RootFront)
    (name rest : List UInt8) :
    (front.spelled name ++ rest).takeWhile isGap = front.blanks := by
  obtain ⟨some_keyword, noBlank⟩ := isGap_of_mem_keywords front.keyword_mem
  rw [spelled, List.append_assoc,
    List.takeWhile_append_of_pos front.blanks_gap, List.append_assoc]
  cases keywordEq : front.keyword with
  | nil => exact absurd keywordEq some_keyword
  | cons b keyword =>
    rw [List.cons_append, List.takeWhile_cons_of_neg, List.append_nil]
    rw [noBlank b (keywordEq ▸ List.mem_cons_self)]
    exact Bool.false_ne_true

/-- Bytes begin like a residual root exactly when the beginning of one stands in
front of them. -/
theorem behindRoot?_isSome_iff
    {name : List UInt8} :
    (behindRoot? name bytes).isSome = true ↔
      ∃ front : RootFront, front.spelled name <+: bytes := by
  constructor
  · intro found
    obtain ⟨behind, found⟩ := Option.isSome_iff_exists.1 found
    unfold behindRoot? at found
    simp only [Option.bind_eq_bind, Option.bind_eq_some_iff] at found
    obtain ⟨gaps, isKeyword, words, isBlank, equals, isWord, calls, isEquals,
      isCall⟩ := found
    obtain ⟨keyword, keyword_mem, keywordEq⟩ := exists_of_behindKeyword? isKeyword
    obtain ⟨gap, gap_ne_nil, gap_gap, gapEq⟩ := exists_of_behindSome? isBlank
    obtain ⟨word, word_ne_nil, word_name, wordEq⟩ := exists_of_behindSome? isWord
    have equalsEq := eq_append_of_behind? isEquals
    obtain ⟨after, after_gap, callEq⟩ := exists_of_startsCall isCall
    refine ⟨{ blanks := bytes.takeWhile isGap, keyword, gap, word,
              before := equals.takeWhile isGap, after,
              blanks_gap := fun _ member => List.mem_takeWhile_imp member
              keyword_mem, gap_ne_nil, gap_gap, word_ne_nil, word_name
              before_gap := fun _ member => List.mem_takeWhile_imp member
              after_gap }, behind, ?_⟩
    rw [RootFront.spelled]
    simp only [List.append_assoc, List.cons_append, List.nil_append]
      at callEq equalsEq ⊢
    rw [← callEq, ← equalsEq, List.takeWhile_append_dropWhile, ← wordEq,
      ← gapEq, ← keywordEq, List.takeWhile_append_dropWhile]
  · rintro ⟨front, behind, rfl⟩
    obtain ⟨some_keyword, noBlank⟩ := isGap_of_mem_keywords front.keyword_mem
    unfold behindRoot? RootFront.spelled
    simp only [Option.bind_eq_bind, List.append_assoc, List.cons_append]
    rw [dropWhile_append_of_stops front.blanks_gap fun b first =>
        noBlank b (head?_append_mem some_keyword first),
      behindKeyword?_append front.keyword_mem, Option.bind_some,
      behindSome?_append front.gap_ne_nil front.gap_gap fun b first =>
        isGap_of_isNameByte
          (front.word_name b (head?_append_mem front.word_ne_nil first)),
      Option.bind_some,
      behindSome?_append front.word_ne_nil front.word_name ?_, Option.bind_some,
      dropWhile_append_of_stops front.before_gap
        (fun b first => by rw [← Option.some.inj first]; rfl)]
    · rw [show ∀ tail : List UInt8, behind? [0x3d] (0x3d :: tail) = some tail
        from behind?_append [0x3d], Option.bind_some]
      have calls := startsCall_append front.after_gap (name ++ [0x28])
        behind
      rwa [List.append_assoc] at calls
    · intro b first
      by_cases none : front.before = []
      · rw [none, List.nil_append] at first
        rw [← Option.some.inj first]
        rfl
      · exact isNameByte_of_isGap
          (front.before_gap b (head?_append_mem none first))

end Residual
end StoryMigration
