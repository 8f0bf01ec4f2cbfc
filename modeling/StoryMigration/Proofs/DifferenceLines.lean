import StoryMigration.Proofs.HunkCover
import StoryMigration.Proofs.LineCuts

/-!
# Lines of a difference

The text of a difference is made of lines: the header of every hunk, and the lines of the alignment, each
behind a sign. Every one of them is a single line.
-/

namespace StoryMigration
namespace Diff

/-! ## The characters of a difference -/

theorem toList_join (texts : List String) :
    ("".intercalate texts).toList = (texts.map String.toList).flatten := by
  induction texts with
  | nil => rfl
  | cons text texts ih =>
    cases texts with
    | nil => simp
    | cons next texts =>
      rw [String.intercalate_cons_of_ne_nil (by simp), String.toList_append, String.toList_append, ih]
      simp

theorem toList_partText (part : Part String) : (partText part).toList = part.signedLines.flatten := by
  have signed (sign : String) (lines : List String) :
      (lines.map (sign ++ ·)).map String.toList = (charLines lines).map (sign.toList ++ ·) := by
    simp [charLines, Function.comp_def]
  cases part with
  | kept lines =>
    rw [partText, toList_join, signed]
    rfl
  | changed before after =>
    rw [partText, toList_join, List.map_append, signed, signed]
    rfl

theorem toList_hunkText (hunk : Hunk) : (hunkText hunk).toList = hunk.lines.flatten := by
  have parts : (hunk.parts.map partText).map String.toList =
      hunk.parts.map fun part => part.signedLines.flatten := by
    rw [List.map_map]
    exact List.map_congr_left fun part _ => toList_partText part
  rw [hunkText, String.toList_append, toList_join, parts, Hunk.lines, List.flatten_cons, Hunk.body,
    List.flatMap, List.flatten_flatten, List.map_map]
  rfl

/-- The lines of the difference of two texts behind their names. -/
def differenceLines (before after : String) : List (List Char) :=
  (hunks (alignment (linesOf before) (linesOf after))).flatMap Hunk.lines

theorem toList_unified {before after : String}
    (present : hunks (alignment (linesOf before) (linesOf after)) ≠ []) (path : String) :
    (unified before after path).toList =
      (namesText path).toList ++ (differenceLines before after).flatten := by
  unfold unified
  split
  next none => exact absurd none present
  next =>
    have texts (hunks : List Hunk) : (hunks.map hunkText).map String.toList =
        hunks.map fun hunk => hunk.lines.flatten := by
      rw [List.map_map]
      exact List.map_congr_left fun hunk _ => toList_hunkText hunk
    rw [String.toList_append, toList_join, texts, differenceLines, List.flatMap,
      List.flatten_flatten, List.map_map]
    rfl

/-! ## Single lines -/

theorem endsLine_of_isDigit {c : Char} (digit : c.isDigit = true) : endsLine c = false := by
  simp only [Char.isDigit, Bool.and_eq_true, decide_eq_true_eq, UInt32.le_iff_toNat_le] at digit
  obtain ⟨large, small⟩ : 48 ≤ c.val.toNat ∧ c.val.toNat ≤ 57 := digit
  have feeds : ¬c ≤ '\r' := fun le => by
    have : c.val.toNat ≤ 13 := UInt32.le_iff_toNat_le.1 (Char.le_def.1 le)
    omega
  have separators : ¬c ≤ '\x1e' := fun le => by
    have : c.val.toNat ≤ 30 := UInt32.le_iff_toNat_le.1 (Char.le_def.1 le)
    omega
  have apart (other : Char) (high : 57 < other.val.toNat) : c ≠ other := by
    rintro rfl
    omega
  simp [endsLine, feeds, separators, apart '\u0085' (by decide), apart '\u2028' (by decide),
    apart '\u2029' (by decide)]

theorem endsLine_of_mem_rangeText {start count : Nat} {c : Char}
    (mem : c ∈ (rangeText start count).toList) : endsLine c = false := by
  have digits (n : Nat) (mem : c ∈ Nat.toDigits 10 n) : endsLine c = false :=
    endsLine_of_isDigit (Nat.isDigit_of_mem_toDigits (by decide) (by decide) mem)
  unfold rangeText at mem
  split at mem
  · exact digits _ (by simpa using mem)
  · simp only [String.toList_append, Nat.toString_eq_ofList_toDigits, String.toList_ofList,
      List.mem_append] at mem
    obtain (mem | mem) | mem := mem
    · exact digits _ mem
    · obtain rfl := List.mem_singleton.1 mem
      rfl
    · exact digits _ mem

/-- A header ends with the only line end that it has. -/
theorem exists_headerLine_eq (hunk : Hunk) :
    ∃ front, headerLine hunk = '@' :: front ++ ['\n'] ∧ ∀ c ∈ '@' :: front, endsLine c = false := by
  refine ⟨("@ -" ++ rangeText hunk.before hunk.beforeCount ++ " +"
    ++ rangeText hunk.after hunk.afterCount ++ " @@").toList, by simp [headerLine], ?_⟩
  simp only [String.toList_append, List.forall_mem_cons, List.forall_mem_append]
  refine ⟨rfl, ⟨⟨⟨?_, fun c => endsLine_of_mem_rangeText⟩, ?_⟩,
    fun c => endsLine_of_mem_rangeText⟩, ?_⟩ <;> simp [endsLine]

theorem ended_headerLine (hunk : Hunk) : Ended (headerLine hunk) := by
  obtain ⟨front, line, _⟩ := exists_headerLine_eq hunk
  rw [line]
  exact ⟨'\n', by rw [List.getLast?_concat]; rfl, rfl⟩

/-- The signs that the lines of a difference begin with. -/
def signs : List Char := [' ', '-', '+', '@']

/-- A line of a difference: a single one behind a sign. -/
def Signed (line : List Char) : Prop := OneLine line ∧ ∃ sign ∈ signs, line.head? = some sign

theorem Signed.joinable {lines : List (List Char)} (signed : ∀ line ∈ lines, Signed line) :
    Joinable lines := by
  intro line mem
  obtain ⟨one, sign, isSign, head⟩ := signed line mem
  refine ⟨one, fun feed => ?_⟩
  obtain rfl := Option.some.inj (head.symm.trans feed)
  exact absurd isSign (by decide)

theorem signed_headerLine (hunk : Hunk) : Signed (headerLine hunk) := by
  obtain ⟨front, line, plain⟩ := exists_headerLine_eq hunk
  rw [line]
  exact ⟨.of_plain plain '\n', '@', by decide, rfl⟩

/-- A line of a part is a line of one of its sides behind a sign. -/
theorem exists_of_mem_signedLines {part : Part String} {line : List Char}
    (mem : line ∈ part.signedLines) :
    ∃ sign ∈ [' ', '-', '+'], ∃ content,
      line = sign :: content ∧ (content ∈ charLines part.before ∨ content ∈ charLines part.after) := by
  cases part with
  | kept lines =>
    obtain ⟨content, among, rfl⟩ := List.mem_map.1 mem
    exact ⟨' ', by decide, content, rfl, Or.inl among⟩
  | changed before after =>
    obtain mem | mem := List.mem_append.1 mem
    · obtain ⟨content, among, rfl⟩ := List.mem_map.1 mem
      exact ⟨'-', by decide, content, rfl, Or.inl among⟩
    · obtain ⟨content, among, rfl⟩ := List.mem_map.1 mem
      exact ⟨'+', by decide, content, rfl, Or.inr among⟩

theorem charLines_linesOf (text : String) : charLines (linesOf text) = linesOfChars text.toList := by
  simp [charLines, linesOf]

theorem linesOf_injective : Function.Injective linesOf := by
  intro text other same
  have lines : linesOfChars text.toList = linesOfChars other.toList := by
    rw [← charLines_linesOf, same, charLines_linesOf]
  rw [← String.toList_inj, ← flatten_linesOfChars text.toList, lines, flatten_linesOfChars]

section texts

variable {before after : String}

theorem flatMap_before_alignment (before after : String) :
    (alignment (linesOf before) (linesOf after)).flatMap Part.before = linesOf before :=
  flatMap_before_align _ _ _ _

theorem flatMap_after_alignment (before after : String) :
    (alignment (linesOf before) (linesOf after)).flatMap Part.after = linesOf after :=
  flatMap_after_align _ _ _ _

theorem charLines_subset {parts : List (Part String)} {part : Part String} (among : part ∈ parts)
    (side : Part String → List String) :
    charLines (side part) ⊆ charLines (parts.flatMap side) :=
  List.map_subset _ fun _ mem => List.mem_flatMap.2 ⟨part, among, mem⟩

theorem oneLine_of_mem_side {part : Part String}
    (among : part ∈ alignment (linesOf before) (linesOf after)) {content : List Char}
    (side : content ∈ charLines part.before ∨ content ∈ charLines part.after) : OneLine content := by
  obtain mem | mem := side
  · have inText := charLines_subset among Part.before mem
    rw [flatMap_before_alignment, charLines_linesOf] at inText
    exact oneLine_of_mem _ _ inText
  · have inText := charLines_subset among Part.after mem
    rw [flatMap_after_alignment, charLines_linesOf] at inText
    exact oneLine_of_mem _ _ inText

theorem signed_of_mem_alignment {part : Part String}
    (among : part ∈ alignment (linesOf before) (linesOf after)) {line : List Char}
    (mem : line ∈ part.signedLines) : Signed line := by
  obtain ⟨sign, isSign, content, rfl, side⟩ := exists_of_mem_signedLines mem
  have signs : ∀ sign ∈ [' ', '-', '+'], sign ∈ signs ∧ endsLine sign = false := by
    simp [signs, endsLine]
  obtain ⟨isSign, plain⟩ := signs sign isSign
  exact ⟨.cons plain (oneLine_of_mem_side among side), sign, isSign, rfl⟩

theorem signed_differenceLines : ∀ line ∈ differenceLines before after, Signed line := by
  intro line mem
  obtain ⟨hunk, amongHunks, mem⟩ := List.mem_flatMap.1 mem
  obtain rfl | mem := List.mem_cons.1 mem
  · exact signed_headerLine hunk
  · have inBody := List.mem_flatMap.2 ⟨hunk, amongHunks, mem⟩
    obtain ⟨part, among, mem⟩ := List.mem_flatMap.1 ((body_hunks_sublist _).subset inBody)
    exact signed_of_mem_alignment among mem

end texts

end Diff
end StoryMigration
