import StoryMigration.Proofs.FreeNames
import StoryMigration.Proofs.IdentifierClasses

/-!
# Legal identifiers

An identifier made from a display name keeps the letters and numbers of the name,
in either case.  Some numbers, such as superscripts and fractions, have no place
in an identifier of the language.  So the identifier is legal exactly if the name
has none of these.
-/

namespace StoryMigration
namespace StoryName

/-- Identifiers of the language that are no reserved words. -/
structure IsLegalIdentifier (name : String) : Prop where
  shape : ∃ first rest, name.toList = first :: rest ∧
    (first = '$' ∨ first = '_' ∨ isIdStart first = true) ∧
    ∀ c ∈ rest, c = '$' ∨ isIdContinue c = true
  unreserved : name ∉ reservedWords

theorem IsLegalIdentifier.isIdContinue
    {name : String}
    (legal : IsLegalIdentifier name) :
    ∀ c ∈ name.toList, c = '$' ∨ isIdContinue c = true := by
  obtain ⟨first, rest, nameEq, starts, continues⟩ := legal.shape
  rw [nameEq]
  refine List.forall_mem_cons.2 ⟨?_, continues⟩
  rcases starts with rfl | rfl | starts
  · exact .inl rfl
  · exact .inr (by decide)
  · exact .inr (isIdContinue_of_isIdStart starts)

/-! ## Characters without case -/

/-- A character that both case mappings leave as it is. -/
structure IsCaseless (c : Char) : Prop where
  ofUpper : upper c = [c]
  ofLower : ∀ before behind, lowerBetween before c behind = [c]

/-- The letters and numbers that an identifier cannot go on with have no case. -/
theorem isCaseless_of_isWordChar
    {c : Char}
    (isWord : isWordChar c = true)
    (stops : isIdContinue c = false) :
    IsCaseless c where
  ofUpper := by
    rcases upper_cases (.inl isWord) with same | ⟨continues, -⟩
    · exact same
    · rw [stops] at continues
      contradiction
  ofLower before behind := by
    rcases lowerBetween_cases before behind (.inl isWord) with
      same | ⟨continues, -⟩
    · exact same
    · rw [stops] at continues
      contradiction

namespace IsCaseless

variable {c : Char} (caseless : IsCaseless c)
include caseless

theorem mem_lower
    {text : List Char}
    (member : c ∈ text) :
    c ∈ lower text := by
  have behind (before : List Char) : c ∈ lowerBehind before text := by
    induction text generalizing before with
    | nil => exact absurd member List.not_mem_nil
    | cons d text textHypothesis =>
      rw [lowerBehind, List.mem_append]
      rcases List.mem_cons.1 member with rfl | later
      · rw [caseless.ofLower]
        exact .inl (List.mem_singleton_self c)
      · exact .inr (textHypothesis later _)
  exact behind []

theorem mem_capitalized
    {word : List Char}
    (member : c ∈ word) :
    c ∈ capitalized word := by
  cases word with
  | nil => exact member
  | cons d rest =>
    rw [capitalized, List.mem_append]
    rcases List.mem_cons.1 member with rfl | later
    · rw [caseless.ofUpper]
      exact .inl (List.mem_singleton_self c)
    · exact .inr later

theorem mem_camelCase
    {words : List (List Char)}
    {word : List Char}
    (isWord : word ∈ words)
    (member : c ∈ word) :
    c ∈ camelCase words := by
  cases words with
  | nil => exact absurd isWord List.not_mem_nil
  | cons first words =>
    rw [camelCase, List.mem_append]
    rcases List.mem_cons.1 isWord with rfl | later
    · exact .inl (caseless.mem_lower member)
    · exact .inr (List.mem_flatMap.2
        ⟨word, later, caseless.mem_capitalized (caseless.mem_lower member)⟩)

end IsCaseless

/-! ## Identifiers -/

/-- All letters and numbers of a name can stand in an identifier. -/
def FitsIdentifier (name : List Char) : Prop :=
  ∀ c ∈ name, isWordChar c = true → isIdContinue c = true

theorem identifierKey_ne_nil
    (name : List Char) :
    identifierKey name ≠ [] := by
  unfold identifierKey
  split
  · decide
  · assumption

theorem FitsIdentifier.isIdContinue
    {name : List Char}
    (fits : FitsIdentifier name) :
    ∀ d ∈ identifierKey name, isIdContinue d = true := by
  unfold identifierKey
  split
  · exact List.all_eq_true.1 (by decide +kernel)
  · refine keptByCase_isIdContinue.camelCase fun word isWord c member => ?_
    obtain ⟨inName, wordChar⟩ :=
      exists_mem_splitWords_iff.1 ⟨word, isWord, member⟩
    exact fits c inName wordChar

/-- An identifier starts with the lower case of a letter or number. -/
theorem FitsIdentifier.isIdStart_head
    {name : List Char}
    (fits : FitsIdentifier name) :
    ∀ d ∈ (identifierKey name).head?, isDigitChar d = false →
      isIdStart d = true := by
  unfold identifierKey
  split
  · intro d isHead _
    have isFirst : some 's' = some d := isHead
    rw [← Option.some.inj isFirst]
    decide
  rename_i notEmpty
  cases wordsEq : splitWords name with
  | nil =>
    rw [wordsEq] at notEmpty
    exact absurd rfl notEmpty
  | cons word words =>
    have isWord : word ∈ splitWords name := by
      rw [wordsEq]
      exact List.mem_cons_self
    obtain ⟨c, rest, rfl⟩ :=
      List.exists_cons_of_ne_nil (ne_nil_of_mem_splitWords isWord)
    obtain ⟨inName, wordChar⟩ :=
      exists_mem_splitWords_iff.1 ⟨_, isWord, List.mem_cons_self⟩
    intro d isHead noDigit
    rw [camelCase, lower, lowerBehind] at isHead
    rcases lowerBetween_cases [] rest (.inl wordChar) with
      same | ⟨-, first, more, lowerEq, starts, -⟩
    · rw [same] at isHead
      rw [← Option.some.inj isHead] at noDigit ⊢
      exact isIdStart_of_isWordChar wordChar (fits c inName wordChar) noDigit
    · rw [lowerEq] at isHead
      rw [← Option.some.inj isHead]
      exact starts

/-- Underscores in front change nothing about whether an identifier is legal. -/
theorem isLegalIdentifier_prefixed_iff
    (used : Nat)
    (name : List Char) :
    IsLegalIdentifier (NamePool.prefixed used (identifierOf name)) ↔
      FitsIdentifier name := by
  obtain ⟨count, guardedEq, unguarded⟩ := exists_guarded_eq (identifierKey name)
  have textEq : (NamePool.prefixed used (identifierOf name)).toList =
      List.replicate (used + count) '_' ++ identifierKey name := by
    rw [NamePool.toList_prefixed, identifierOf_eq_guarded, guardedEq,
      ← List.append_assoc, List.replicate_append_replicate]
  constructor
  · -- a character that cannot go on in an identifier has no case, so it is kept
    intro legal c inName wordChar
    rw [← Bool.not_eq_false]
    intro stops
    obtain ⟨word, isWord, member⟩ :=
      exists_mem_splitWords_iff.2 ⟨inName, wordChar⟩
    have inCamel := (isCaseless_of_isWordChar wordChar stops).mem_camelCase
      isWord member
    have inKey : c ∈ identifierKey name := by
      rw [identifierKey, if_neg (List.ne_nil_of_mem inCamel)]
      exact inCamel
    have continues := legal.isIdContinue c
      (textEq ▸ List.mem_append_right _ inKey)
    rcases continues with rfl | continues
    · exact absurd wordChar (by decide)
    · rw [stops] at continues
      contradiction
  · intro fits
    refine ⟨?_, (isFreeName_prefixed used name).unreserved⟩
    obtain ⟨d, rest, keyEq⟩ :=
      List.exists_cons_of_ne_nil (identifierKey_ne_nil name)
    have starts := fits.isIdStart_head d (by rw [keyEq]; rfl)
    have continues := fits.isIdContinue
    rw [textEq]
    cases scores : used + count with
    | zero =>
      rw [keyEq] at continues unguarded ⊢
      refine ⟨d, rest, rfl, .inr (.inr (starts (unguarded (by omega) d rfl))), ?_⟩
      exact fun c member => .inr (continues c (List.mem_cons_of_mem d member))
    | succ more =>
      refine ⟨'_', List.replicate more '_' ++ identifierKey name, rfl,
        .inr (.inl rfl), fun c member => .inr ?_⟩
      rcases List.mem_append.1 member with isScore | inKey
      · rw [List.eq_of_mem_replicate isScore]
        decide
      · exact continues c inKey

/-- The identifier of a name, and the one that a story of this name claims in any
pool, is a legal identifier exactly if the letters and numbers of the name can all
stand in one. -/
theorem identifiers_legal_iff
    (name : Text) :
    (IsLegalIdentifier (identifierOf name.legible) ↔
        FitsIdentifier name.legible) ∧
      ∀ pool : NamePool,
        IsLegalIdentifier (pool.claimStory name.legible).1 ↔
          FitsIdentifier name.legible := by
  constructor
  · have plain := isLegalIdentifier_prefixed_iff 0 name.legible
    rwa [NamePool.prefixed_zero] at plain
  · intro pool
    obtain ⟨used, claimed, -⟩ := pool.claim_eq (identifierOf name.legible)
    rw [NamePool.claimStory, claimed]
    exact isLegalIdentifier_prefixed_iff used name.legible

/-- A superscript is a number, and stays in the identifier, where the language
does not accept it. -/
theorem identifier_illegal_superscript :
    identifierOf (Text.ofString "m²").legible = "m²" ∧
      ¬IsLegalIdentifier (identifierOf (Text.ofString "m²").legible) := by
  have identifierEq : identifierOf (Text.ofString "m²").legible = "m²" := by
    decide +kernel
  refine ⟨identifierEq, fun legal => ?_⟩
  rw [identifierEq] at legal
  rcases legal.isIdContinue '²' (by decide) with isDollar | continues
  · exact absurd isDollar (by decide)
  · exact absurd continues (by decide +kernel)

end StoryName
end StoryMigration
