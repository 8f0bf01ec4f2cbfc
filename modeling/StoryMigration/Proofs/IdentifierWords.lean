import StoryMigration.Proofs.NameWords
import StoryMigration.Proofs.TokenText

/-!
# The characters of story identifiers

An identifier made from a display name consists of characters that a word can
hold.  The words of a name are letters and numbers, and neither case mapping
leaves what a word can hold.
-/

namespace StoryMigration

open Syntax Lexeme

/-! ## Ranges of characters -/

/-- Numbers of the blanks beyond ASCII. -/
def blankNumbers : List Nat := [
    0xa0, 0x1680, 0x2000, 0x2001, 0x2002, 0x2003, 0x2004, 0x2005, 0x2006, 0x2007,
    0x2008, 0x2009, 0x200a, 0x200b, 0x2028, 0x2029, 0x202f, 0x205f, 0x2060, 0x3000,
    0xfeff]

/-- A word can hold all characters of a range: it is a single one that a word can
hold, or lies beyond ASCII, on one side of the surrogates and between blanks. -/
def rangeFits (first last : Nat) : Bool :=
  first == last && !isBreak (Char.ofNat first) ||
    (128 ≤ first && (last < 0xd800 || 0xe000 ≤ first && last < 0x110000) &&
      blankNumbers.all fun blank => blank < first || last < blank)

theorem mem_blankNumbers
    {c : Char}
    (large : 128 ≤ c.toNat)
    (blank : isBlank c = true) :
    c.toNat ∈ blankNumbers := by
  simp only [isBlank, Bool.or_eq_true, beq_iff_eq, Bool.and_eq_true,
    decide_eq_true_eq, or_assoc] at blank
  rcases blank with rfl | rfl | rfl | rfl | rfl | rfl | rfl | rfl | ⟨first, last⟩ |
    rfl | rfl | rfl | rfl | rfl | rfl | rfl
  case inr.inr.inr.inr.inr.inr.inr.inr.inl =>
    have firstLe : 0x2000 ≤ c.toNat := UInt32.le_iff_toNat_le.1 first
    have leLast : c.toNat ≤ 0x200b := UInt32.le_iff_toNat_le.1 last
    simp only [blankNumbers, List.mem_cons, List.not_mem_nil, or_false]
    omega
  all_goals revert large; decide

/-- Beyond ASCII a word can hold all characters but blanks. -/
theorem isBreak_of_large
    {c : Char}
    (large : 128 ≤ c.toNat)
    (other : c.toNat ∉ blankNumbers) :
    isBreak c = false := by
  rw [Bool.eq_false_iff]
  intro breaks
  simp only [isBreak, Bool.or_eq_true, decide_eq_true_eq] at breaks
  rcases breaks with (control | blank) | punctuation
  · have small : c.toNat ≤ 0x1f := UInt32.le_iff_toNat_le.1 control
    omega
  · exact other (mem_blankNumbers large blank)
  · have small : "!\"#%&'()*+,-./:;<=>?@[\\]^`\x7b|\x7d~".toList.all
        (decide <| ·.toNat < 128) = true := by
      decide
    have isSmall := List.all_eq_true.1 small c (List.contains_iff_mem.1 punctuation)
    rw [decide_eq_true_eq] at isSmall
    omega

/-- A word can hold every character of a range that fits. -/
theorem isBreak_of_rangeFits
    {first last n : Nat}
    (fits : rangeFits first last = true)
    (firstLe : first ≤ n)
    (leLast : n ≤ last) :
    isBreak (Char.ofNat n) = false := by
  simp only [rangeFits, Bool.or_eq_true, Bool.and_eq_true, beq_iff_eq,
    Bool.not_eq_true', decide_eq_true_eq, List.all_eq_true] at fits
  rcases fits with ⟨rfl, single⟩ | ⟨⟨large, sides⟩, apart⟩
  · rw [Nat.le_antisymm leLast firstLe]
    exact single
  · have valid : n.isValidChar := by
      unfold Nat.isValidChar
      omega
    have toNatEq := toNat_ofNat valid
    refine isBreak_of_large (by omega) fun isBlank => ?_
    rw [toNatEq] at isBlank
    have := apart n isBlank
    omega

/-! ## The case mappings -/

/-- A text of characters that a word can hold. -/
def IsWordText (text : List Char) : Prop := ∀ c ∈ text, isBreak c = false

instance (text : List Char) : Decidable (IsWordText text) :=
  decidable_of_iff (text.all (!isBreak ·) = true) (by simp [IsWordText])

theorem IsWordText.append
    {front back : List Char}
    (frontFits : IsWordText front)
    (backFits : IsWordText back) :
    IsWordText (front ++ back) := by
  intro c member
  rcases List.mem_append.1 member with inFront | inBack
  · exact frontFits c inFront
  · exact backFits c inBack

theorem IsWordText.singleton
    {c : Char}
    (fits : isBreak c = false) :
    IsWordText [c] := by
  intro d member
  rw [List.mem_singleton.1 member]
  exact fits

/-- A letter or number is one that a word can hold. -/
theorem isBreak_of_isWordChar
    {c : Char}
    (isWord : isWordChar c = true) :
    isBreak c = false := by
  unfold isWordChar at isWord
  split at isWord
  · rename_i small
    have ascii := of_ascii (fun c => !c.isAlphanum || !isBreak c) (by decide) small
    rw [isWord] at ascii
    simpa using ascii
  · obtain ⟨range, isRange, inside⟩ := List.any_eq_true.1 isWord
    rw [Bool.and_eq_true, decide_eq_true_eq, decide_eq_true_eq] at inside
    have fits : (Letter.wordRanges.all fun range =>
        rangeFits range.1 range.2) = true := by
      decide +kernel
    have own := List.all_eq_true.1 fits range isRange
    have result := isBreak_of_rangeFits own inside.1 inside.2
    rwa [Char.ofNat_toNat] at result

namespace LetterCase

/-- A table of distances whose runs are moved to ranges that fit. -/
def runsFit (table : List (Nat × Nat × Nat × Int)) : Bool :=
  table.all fun run =>
    0 ≤ run.1 + run.2.2.2 &&
      rangeFits (run.1 + run.2.2.2).toNat (run.2.1 + run.2.2.2).toNat

theorem isBreak_shift
    {table : List (Nat × Nat × Nat × Int)}
    {c : Char}
    {distance : Int}
    (fits : runsFit table = true)
    (found : find? table c.toNat = some distance) :
    isBreak (shift c distance) = false := by
  obtain ⟨run, isFound, rfl⟩ := Option.map_eq_some_iff.1 found
  have inside := List.find?_some isFound
  have own := List.all_eq_true.1 fits run (List.mem_of_find?_eq_some isFound)
  simp only [Bool.and_eq_true, decide_eq_true_eq] at inside own
  exact isBreak_of_rangeFits own.2 (by omega) (by omega)

end LetterCase

theorem isWordText_upper
    {c : Char}
    (fits : isBreak c = false) :
    IsWordText (upper c) := by
  unfold upper
  split
  · rename_i small
    have ascii := of_ascii (fun c => isBreak c || !isBreak c.toUpper) (by decide)
      small
    rw [fits] at ascii
    exact .singleton (by simpa using ascii)
  split
  · rename_i entry found
    have several : (LetterCase.toSeveral.all fun entry =>
        entry.2.all fun n => !isBreak (Char.ofNat n)) = true := by
      decide +kernel
    have own := List.all_eq_true.1 several entry (List.mem_of_find?_eq_some found)
    intro d member
    obtain ⟨n, isNumber, rfl⟩ := List.mem_map.1 member
    simpa using List.all_eq_true.1 own n isNumber
  split
  · rename_i distance found
    exact .singleton (LetterCase.isBreak_shift (by decide +kernel) found)
  · exact .singleton fits

theorem isWordText_lowerBetween
    {c : Char}
    (before behind : List Char)
    (fits : isBreak c = false) :
    IsWordText (lowerBetween before c behind) := by
  unfold lowerBetween
  split
  · rename_i small
    have ascii := of_ascii (fun c => isBreak c || !isBreak c.toLower) (by decide)
      small
    rw [fits] at ascii
    exact .singleton (by simpa using ascii)
  split
  · split
    · exact .singleton (by decide)
    · exact .singleton (by decide)
  split
  · decide
  split
  · rename_i distance found
    exact .singleton (LetterCase.isBreak_shift (by decide +kernel) found)
  · exact .singleton fits

/-! ## Identifiers -/

/-- A property of characters that both case mappings keep. -/
structure KeptByCase (holds : Char → Prop) : Prop where
  ofUpper : ∀ {c}, holds c → ∀ d ∈ upper c, holds d
  ofLower : ∀ {c} before behind, holds c →
    ∀ d ∈ lowerBetween before c behind, holds d

namespace KeptByCase

open StoryName

variable {holds : Char → Prop} (kept : KeptByCase holds)
include kept

theorem lower
    {text : List Char}
    (hold : ∀ c ∈ text, holds c) :
    ∀ d ∈ StoryMigration.lower text, holds d := by
  have behind (before : List Char) : ∀ d ∈ lowerBehind before text, holds d := by
    induction text generalizing before with
    | nil => exact fun _ member => absurd member List.not_mem_nil
    | cons c text textHypothesis =>
      rw [List.forall_mem_cons] at hold
      intro d member
      rw [lowerBehind] at member
      rcases List.mem_append.1 member with own | later
      · exact kept.ofLower _ _ hold.1 d own
      · exact textHypothesis hold.2 _ d later
  exact behind []

theorem capitalized
    {word : List Char}
    (hold : ∀ c ∈ word, holds c) :
    ∀ d ∈ StoryName.capitalized word, holds d := by
  cases word with
  | nil => exact hold
  | cons c rest =>
    rw [List.forall_mem_cons] at hold
    intro d member
    rcases List.mem_append.1 member with own | later
    · exact kept.ofUpper hold.1 d own
    · exact hold.2 d later

theorem camelCase
    {words : List (List Char)}
    (hold : ∀ word ∈ words, ∀ c ∈ word, holds c) :
    ∀ d ∈ StoryName.camelCase words, holds d := by
  cases words with
  | nil => exact fun _ member => absurd member List.not_mem_nil
  | cons word words =>
    rw [List.forall_mem_cons] at hold
    intro d member
    rcases List.mem_append.1 member with own | later
    · exact kept.lower hold.1 d own
    · obtain ⟨next, isNext, inNext⟩ := List.mem_flatMap.1 later
      exact kept.capitalized (kept.lower (hold.2 next isNext)) d inNext

end KeptByCase

theorem keptByCase_unbroken : KeptByCase (isBreak · = false) :=
  ⟨isWordText_upper, isWordText_lowerBetween⟩

namespace StoryName

theorem isWordText_of_mem_splitWords
    {text word : List Char}
    (isWord : word ∈ splitWords text) :
    IsWordText word := by
  intro c member
  exact isBreak_of_isWordChar (exists_mem_splitWords_iff.1 ⟨word, isWord, member⟩).2

theorem isWordText_camelCase
    {words : List (List Char)}
    (fit : ∀ word ∈ words, IsWordText word) :
    IsWordText (camelCase words) :=
  keptByCase_unbroken.camelCase fit

/-- Digits and reserved words get underscores in front, other texts stay as they
are. -/
theorem exists_guarded_eq
    (key : List Char) :
    ∃ count, (guarded key).toList = List.replicate count '_' ++ key ∧
      (count = 0 → ∀ c ∈ key.head?, isDigitChar c = false) := by
  have marked : ∃ count,
      (if (key.head?.map isDigitChar).getD false then '_' :: key else key) =
        List.replicate count '_' ++ key ∧
      (count = 0 → ∀ c ∈ key.head?, isDigitChar c = false) := by
    split
    · exact ⟨1, rfl, fun none => absurd none Nat.one_ne_zero⟩
    · rename_i noDigit
      refine ⟨0, rfl, fun _ c isHead => ?_⟩
      rw [Option.mem_def.1 isHead] at noDigit
      exact Bool.not_eq_true _ ▸ noDigit
  obtain ⟨count, markedEq, unmarked⟩ := marked
  unfold guarded
  rw [markedEq]
  dsimp only
  split
  · refine ⟨count + 1, ?_, fun none => absurd none (Nat.succ_ne_zero count)⟩
    rw [String.toList_append, String.toList_ofList, List.replicate_succ,
      String.toList_ofList]
    rfl
  · exact ⟨count, String.toList_ofList, unmarked⟩

/-- The characters that an identifier is made of, without the underscores in
front. -/
def identifierKey (name : List Char) : List Char :=
  if camelCase (splitWords name) = [] then fallback.toList
  else camelCase (splitWords name)

theorem identifierOf_eq_guarded
    (name : List Char) :
    identifierOf name = guarded (identifierKey name) := by
  unfold identifierOf identifierKey
  split
  · rename_i isEmpty
    rw [if_pos isEmpty]
  · rename_i notEmpty
    rw [if_neg notEmpty]

/-- An identifier consists of characters that a word can hold. -/
theorem isWordText_identifierOf
    (name : List Char) :
    IsWordText (identifierOf name).toList := by
  obtain ⟨count, guardedEq, -⟩ := exists_guarded_eq (identifierKey name)
  rw [identifierOf_eq_guarded, guardedEq]
  refine IsWordText.append (fun c member => ?_) ?_
  · rw [List.eq_of_mem_replicate member]
    decide
  · unfold identifierKey
    split
    · decide
    · exact isWordText_camelCase fun word isWord =>
        isWordText_of_mem_splitWords isWord

end StoryName

end StoryMigration
