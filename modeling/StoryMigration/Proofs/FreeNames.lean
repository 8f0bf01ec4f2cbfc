import StoryMigration.Proofs.FreshNames
import StoryMigration.Proofs.IdentifierWords
import StoryMigration.Proofs.WordReading
import StoryMigration.Story.Assembly

/-!
# Free names

The identifier of every story is a word of the grammar that no dialect
reserves, so that it names a binding wherever it stands.
-/

namespace StoryMigration

open Syntax

/-- A name that no dialect reserves. -/
structure IsFreeName (name : String) : Prop where
  isWord : Lexeme.IsWord name.toList
  unreserved : name ∉ StoryName.reservedWords

namespace IsFreeName

variable {name : String} (free : IsFreeName name)
include free

theorem ne
    {other : String}
    (isReserved : other ∈ StoryName.reservedWords) :
    name ≠ other := by
  rintro rfl
  exact free.unreserved isReserved

/-- Where nothing but a name can stand, the dialects reserve fewer words. -/
theorem nameIn (dialect : Dialect) :
    (if dialect.hasTypes then [] else Reading.reservedWords).contains name =
      false := by
  have subset : ∀ word ∈ Reading.reservedWords,
      word ∈ StoryName.reservedWords := by
    decide
  rw [Bool.eq_false_iff, ne_eq, List.contains_iff_mem]
  split
  · exact List.not_mem_nil
  · exact fun member => free.unreserved (subset name member)

end IsFreeName

namespace StoryName

/-- Whatever a word goes on with behind an underscore, it is a free name. -/
theorem isFreeName_underscore
    {text : String}
    (fits : IsWordText text.toList) :
    IsFreeName ("_" ++ text) where
  isWord := by
    rw [String.toList_append]
    refine ⟨List.cons_ne_nil _ _, fun c member => ?_, fun c isHead => ?_⟩
    · rcases List.mem_append.1 member with isScore | isOwn
      · rw [List.mem_singleton.1 isScore]
        decide
      · exact fits c isOwn
    · cases isHead
      decide
  unreserved member := by
    have noScore : ∀ word ∈ reservedWords, word.toList.head? ≠ some '_' := by
      decide
    refine noScore _ member ?_
    rw [String.toList_append]
    rfl

theorem isDigitChar_of_isDigit
    {c : Char}
    (isDigit : c.isDigit = true) :
    isDigitChar c = true := by
  have small : c.toNat < 128 := by
    simp only [Char.isDigit, Bool.and_eq_true, decide_eq_true_eq,
      UInt32.le_iff_toNat_le] at isDigit
    have bound : c.val.toNat ≤ 57 := isDigit.2
    exact Nat.lt_of_le_of_lt bound (by decide)
  unfold isDigitChar isDecimal
  rw [if_pos small, isDigit, Bool.true_or]

/-- Characters of words make a free name where digits and reserved words get an
underscore. -/
theorem isFreeName_guarded
    {key : List Char}
    (nonempty : key ≠ [])
    (fits : IsWordText key) :
    IsFreeName (guarded key) := by
  have isWord : Lexeme.IsWord (if (key.head?.map isDigitChar).getD false
      then '_' :: key else key) := by
    split
    · refine ⟨List.cons_ne_nil _ _, fun c member => ?_, fun c isHead => ?_⟩
      · rcases List.mem_cons.1 member with rfl | isOwn
        · decide
        · exact fits c isOwn
      · cases isHead
        decide
    · rename_i noDigit
      refine ⟨nonempty, fits, fun c isHead => ?_⟩
      rw [Option.mem_def.1 isHead] at noDigit
      rw [Bool.eq_false_iff]
      exact fun isDigit => noDigit (isDigitChar_of_isDigit isDigit)
  unfold guarded
  generalize (if (key.head?.map isDigitChar).getD false then '_' :: key
    else key) = marked at isWord ⊢
  dsimp only
  split
  · refine isFreeName_underscore ?_
    rw [String.toList_ofList]
    exact isWord.unbroken
  · rename_i unreserved
    refine ⟨?_, fun member => unreserved (List.contains_iff_mem.2 member)⟩
    rw [String.toList_ofList]
    exact isWord

theorem isFreeName_identifierOf
    (name : List Char) :
    IsFreeName (identifierOf name) := by
  unfold identifierOf
  split
  · exact isFreeName_guarded (by decide) (by decide)
  · rename_i notEmpty
    exact isFreeName_guarded notEmpty (isWordText_camelCase fun word isWord =>
      isWordText_of_mem_splitWords isWord)

/-- Underscores keep an identifier a free name. -/
theorem isFreeName_prefixed
    (used : Nat)
    (name : List Char) :
    IsFreeName (NamePool.prefixed used (identifierOf name)) := by
  cases used with
  | zero =>
    rw [NamePool.prefixed_zero]
    exact isFreeName_identifierOf name
  | succ count =>
    have moreEq : NamePool.prefixed (count + 1) (identifierOf name) =
        "_" ++ NamePool.prefixed count (identifierOf name) := by
      apply String.toList_injective
      rw [NamePool.toList_prefixed, String.toList_append,
        NamePool.toList_prefixed]
      rfl
    rw [moreEq]
    refine isFreeName_underscore ?_
    rw [NamePool.toList_prefixed]
    intro c member
    rcases List.mem_append.1 member with isScore | isOwn
    · rw [List.eq_of_mem_replicate isScore]
      decide
    · exact isWordText_identifierOf name c isOwn

/-- The name that a story claims is free. -/
theorem isFreeName_of_mem_claimStories
    {pool : NamePool}
    {names : List (List Char)}
    {identifier : String}
    (claimed : identifier ∈ pool.claimStories names) :
    IsFreeName identifier := by
  obtain ⟨name, -, used, rfl⟩ := NamePool.eq_prefixed_of_mem_claimStories claimed
  exact isFreeName_prefixed used name

/-- Every story of a chain has a free name. -/
theorem isFreeName_of_mem_named
    {pool : NamePool}
    {entries : List Story.Entry}
    {story : Story.NamedEntry}
    (member : story ∈ Story.named pool entries) :
    IsFreeName story.identifier := by
  obtain ⟨⟨entry, identifier⟩, isPair, rfl⟩ := List.mem_map.1 member
  exact isFreeName_of_mem_claimStories (List.of_mem_zip isPair).2

end StoryName

end StoryMigration
